/-
# `LoyaltyTransfer.Resilience` — retries, circuit breaking and a deadline

`app/partners/resilience.py`.  A call of the resilient adapter is a loop around
the inner adapter's; each iteration passes the gate of the partner's circuit
breaker, checks the deadline, makes one attempt and decides whether to go on:

    entering ─▶ sending ─▶ entering ─▶ …
       │           ├─▶ returned         (settled, out of attempts or of time)
       │           └─▶ raised           (no float holds the next delay's power of two)
       └─▶ returned                     (circuit open, deadline passed)

The breaker is shared by all calls to the partner in the process, so between any
two events of a call the others may have moved it.  The clock readings, the
jitter and the answers of the inner adapter are part of the events.

**Proved here.**  The outcome of a call from the outcomes of its attempts
(`Call.returned_outcome`), and from it when the saga reverses a transfer one of
whose attempts ended UNKNOWN (`unknown_not_reversed_iff`): exactly when the last
attempt was REJECTED and the call did not end at an open circuit.  NOT_SENT is
never the last word over an UNKNOWN; REJECTED can be
(`unknown_then_rejected_reversed`).
-/
import LoyaltyTransfer.Settings

namespace LoyaltyTransfer

open Transaction

/-! ## Retry policy -/

structure RetryPolicy where
  maxAttempts : Int
  baseDelaySeconds : Time
  maxDelaySeconds : Time

/-- `2.0 ** n`; a power that is no float raises. -/
def floatPowerOfTwo (n : Nat) : Except Fault ℚ :=
  if n < 1024 then .ok (2 ^ n) else .error (.runtime "OverflowError")

/-- The delay after the `attempt`-th failed attempt, with full jitter. -/
def RetryPolicy.backoff (policy : RetryPolicy) (attempt : Nat) (rand : ℚ) : Except Fault Time :=
  (floatPowerOfTwo (attempt - 1)).map fun power =>
    rand * min policy.maxDelaySeconds (policy.baseDelaySeconds * power)

theorem RetryPolicy.backoff_ok {policy : RetryPolicy} {attempt : Nat} {rand : ℚ} {delay : Time}
    (h : policy.backoff attempt rand = .ok delay) : attempt ≤ 1024 := by
  by_contra hlarge
  have hover : ¬ attempt - 1 < 1024 := by omega
  rw [RetryPolicy.backoff, floatPowerOfTwo, if_neg hover] at h
  cases h

theorem RetryPolicy.backoff_error {policy : RetryPolicy} {attempt : Nat} {rand : ℚ} {f : Fault}
    (h : policy.backoff attempt rand = .error f) : 1024 < attempt := by
  by_contra hsmall
  have hfits : attempt - 1 < 1024 := by omega
  rw [RetryPolicy.backoff, floatPowerOfTwo, if_pos hfits] at h
  cases h

/-! ## Circuit breaker -/

inductive BreakerState where
  | closed
  | opened
  | halfOpen
  deriving DecidableEq, Repr

structure CircuitBreaker where
  failureThreshold : Int
  cooldownSeconds : Time
  state : BreakerState := .closed
  consecutiveFailures : Nat := 0
  openedAt : Time := 0
  trialInFlight : Bool := false

/-- Reading the `state` property: an OPEN breaker turns HALF_OPEN after its
cooldown. -/
def CircuitBreaker.readState (now : Time) (b : CircuitBreaker) : CircuitBreaker :=
  if b.state = .opened ∧ b.cooldownSeconds ≤ now - b.openedAt then { b with state := .halfOpen }
  else b

def CircuitBreaker.allowRequest (now : Time) (b : CircuitBreaker) : Bool × CircuitBreaker :=
  let b := b.readState now
  match b.state with
  | .closed => (true, b)
  | .halfOpen => if b.trialInFlight then (false, b) else (true, { b with trialInFlight := true })
  | .opened => (false, b)

def CircuitBreaker.recordSuccess (b : CircuitBreaker) : CircuitBreaker :=
  { b with consecutiveFailures := 0, trialInFlight := false, state := .closed }

/-- `_open`. -/
def CircuitBreaker.open (now : Time) (b : CircuitBreaker) : CircuitBreaker :=
  { b with openedAt := now, state := .opened }

def CircuitBreaker.recordFailure (now : Time) (b : CircuitBreaker) : CircuitBreaker :=
  let b := { b with trialInFlight := false }
  if b.state = .halfOpen then b.open now
  else
    let b := { b with consecutiveFailures := b.consecutiveFailures + 1 }
    if b.failureThreshold ≤ b.consecutiveFailures then b.open now else b

/-- What the end of an attempt does to the breaker. -/
def CircuitBreaker.recordAttempt (healthy : Bool) (now : Time) (b : CircuitBreaker) :
    CircuitBreaker :=
  if healthy then b.recordSuccess else b.recordFailure now

/-! ## Calls -/

/-- What `credit_points` and `get_credit_status` differ in.  `conclude` is what
is made of the last result, given whether an attempt was ambiguous. -/
structure Operation (ρ : Type) where
  circuitOpen : ρ
  tooLate : ρ
  cutOff : ρ
  healthy : ρ → Bool
  ambiguous : ρ → Bool
  retryable : ρ → Bool
  conclude : Bool → ρ → ρ
  withAttempts : Nat → ρ → ρ

/-- `ResilientPartnerAdapter.credit_points`. -/
def creditOperation : Operation PartnerCreditResult where
  circuitOpen := { outcome := .notSent, reason := "circuit_open", retryable := false }
  tooLate := { outcome := .notSent, reason := "deadline_exceeded", retryable := false }
  cutOff := { outcome := .unknown, reason := "deadline_exceeded", retryable := false }
  healthy r := decide (r.outcome = .success ∨ r.outcome = .rejected)
  ambiguous r := decide (r.outcome = .unknown)
  retryable r := r.retryable
  conclude possiblyApplied r :=
    -- never downgrade: an earlier attempt may have been applied by the partner
    if possiblyApplied ∧ r.outcome = .notSent then {
      outcome := .unknown, reason := s!"earlier_attempt_unknown_then_{r.reason}"
      retryable := false }
    else r
  withAttempts n r := { r with attempts := n }

/-- `ResilientPartnerAdapter.get_credit_status`. -/
def statusOperation : Operation PartnerStatusResult where
  circuitOpen := { status := .unknown, reason := "circuit_open", retryable := false }
  tooLate := { status := .unknown, reason := "circuit_open", retryable := false }
  cutOff := { status := .unknown, reason := "deadline_exceeded", retryable := false }
  healthy r := decide (r.status ≠ .unknown)
  ambiguous _ := false
  retryable r := r.retryable
  conclude _ r := r
  withAttempts n r := { r with attempts := n }

inductive CallPc (ρ : Type) where
  | entering
  | sending
  | returned (result : ρ)
  | raised

/-- The variables of the loop. -/
structure Call (ρ : Type) where
  deadline : Time
  possiblyApplied : Bool := false
  attempts : Nat := 0
  result : Option ρ := none
  pc : CallPc ρ := .entering

structure ResilientPartnerAdapter where
  retry : RetryPolicy
  deadlineSeconds : Time

/-- The call enters its loop. -/
def ResilientPartnerAdapter.start (adapter : ResilientPartnerAdapter) (ρ : Type) (now : Time) :
    Call ρ where
  deadline := now + adapter.deadlineSeconds

/-- The clock when a failure opens the breaker, the clock when the next delay is
weighed, and the jitter. -/
structure Moments where
  recordedAt : Time
  weighedAt : Time
  rand : ℚ

/-- `gateAt` and `checkedAt` are the readings of the clock by `allow_request` and
for the remaining time.  `raise` is an exception that passes through the call,
`others` what other calls made of the breaker. -/
inductive CallEvent (ρ : Type) where
  | refused (gateAt : Time)
  | late (gateAt checkedAt : Time)
  | send (gateAt checkedAt : Time)
  | answer (result : ρ) (m : Moments)
  | cutOff (m : Moments)
  | raise
  | others (breaker : CircuitBreaker)

section

variable {ρ : Type} (op : Operation ρ) (adapter : ResilientPartnerAdapter)

/-- After the loop. -/
def Call.finish (c : Call ρ) (r : ρ) : Call ρ :=
  { c with
    result := some r
    pc := .returned (op.withAttempts c.attempts (op.conclude c.possiblyApplied r)) }

/-- The result of an attempt is noted. -/
def Call.noted (c : Call ρ) (r : ρ) : Call ρ :=
  { c with result := some r, possiblyApplied := c.possiblyApplied || op.ambiguous r }

/-- After an attempt. -/
def Call.received (c : Call ρ) (b : CircuitBreaker) (r : ρ) (m : Moments) :
    CircuitBreaker × Call ρ :=
  let b := b.recordAttempt (op.healthy r) m.recordedAt
  let c := c.noted op r
  if !op.retryable r ∨ adapter.retry.maxAttempts ≤ c.attempts then (b, c.finish op r)
  else
    match adapter.retry.backoff c.attempts m.rand with
    | .error _ => (b, { c with pc := .raised })
    | .ok delay =>
        if c.deadline ≤ m.weighedAt + delay then (b, c.finish op r)
        else (b, { c with pc := .entering })

/-- One event of a call. -/
def callStep (s : CircuitBreaker × Call ρ) : CallEvent ρ → Option (CircuitBreaker × Call ρ)
  | .refused gateAt =>
      match s.2.pc, s.1.allowRequest gateAt with
      | .entering, (false, b) => some (b, s.2.finish op op.circuitOpen)
      | _, _ => none
  | .late gateAt checkedAt =>
      match s.2.pc, s.1.allowRequest gateAt with
      | .entering, (true, b) =>
          if s.2.deadline - checkedAt ≤ 0 then
            some (b, s.2.finish op (s.2.result.getD op.tooLate))
          else none
      | _, _ => none
  | .send gateAt checkedAt =>
      match s.2.pc, s.1.allowRequest gateAt with
      | .entering, (true, b) =>
          if s.2.deadline - checkedAt ≤ 0 then none
          else some (b, { s.2 with attempts := s.2.attempts + 1, pc := .sending })
      | _, _ => none
  | .answer r m =>
      match s.2.pc with
      | .sending => some (s.2.received op adapter s.1 r m)
      | _ => none
  | .cutOff m =>
      match s.2.pc with
      | .sending => some (s.2.received op adapter s.1 op.cutOff m)
      | _ => none
  | .raise =>
      match s.2.pc with
      | .entering | .sending => some (s.1, { s.2 with pc := .raised })
      | _ => none
  | .others b => some (b, s.2)

/-- The event ends an attempt with `r`. -/
inductive EndsAttempt : CallEvent ρ → ρ → Moments → Prop
  | answer (r : ρ) (m : Moments) : EndsAttempt (.answer r m) r m
  | cutOff (m : Moments) : EndsAttempt (.cutOff m) op.cutOff m

/-- An event of a call, inverted. -/
inductive CallMove (b : CircuitBreaker) (c : Call ρ) :
    CallEvent ρ → CircuitBreaker → Call ρ → Prop
  | refused {gateAt : Time} {b' : CircuitBreaker} (hpc : c.pc = .entering)
      (hgate : b.allowRequest gateAt = (false, b')) :
      CallMove b c (.refused gateAt) b' (c.finish op op.circuitOpen)
  | late {gateAt checkedAt : Time} {b' : CircuitBreaker} (hpc : c.pc = .entering)
      (hgate : b.allowRequest gateAt = (true, b')) (hlate : c.deadline ≤ checkedAt) :
      CallMove b c (.late gateAt checkedAt) b' (c.finish op (c.result.getD op.tooLate))
  | send {gateAt checkedAt : Time} {b' : CircuitBreaker} (hpc : c.pc = .entering)
      (hgate : b.allowRequest gateAt = (true, b')) (htime : checkedAt < c.deadline) :
      CallMove b c (.send gateAt checkedAt) b'
        { c with attempts := c.attempts + 1, pc := .sending }
  | ended {e : CallEvent ρ} {r : ρ} {m : Moments} (hpc : c.pc = .sending)
      (he : EndsAttempt op e r m)
      (hstop : op.retryable r = false ∨ adapter.retry.maxAttempts ≤ c.attempts ∨
        ∃ delay, adapter.retry.backoff c.attempts m.rand = .ok delay ∧
          c.deadline ≤ m.weighedAt + delay) :
      CallMove b c e (b.recordAttempt (op.healthy r) m.recordedAt) ((c.noted op r).finish op r)
  | retried {e : CallEvent ρ} {r : ρ} {m : Moments} {delay : Time} (hpc : c.pc = .sending)
      (he : EndsAttempt op e r m) (hretry : op.retryable r = true)
      (hleft : c.attempts < adapter.retry.maxAttempts)
      (hdelay : adapter.retry.backoff c.attempts m.rand = .ok delay)
      (htime : m.weighedAt + delay < c.deadline) :
      CallMove b c e (b.recordAttempt (op.healthy r) m.recordedAt)
        { c.noted op r with pc := .entering }
  | overflowed {e : CallEvent ρ} {r : ρ} {m : Moments} {f : Fault} (hpc : c.pc = .sending)
      (he : EndsAttempt op e r m) (hretry : op.retryable r = true)
      (hleft : c.attempts < adapter.retry.maxAttempts)
      (hdelay : adapter.retry.backoff c.attempts m.rand = .error f) :
      CallMove b c e (b.recordAttempt (op.healthy r) m.recordedAt)
        { c.noted op r with pc := .raised }
  | raised (hpc : c.pc = .entering ∨ c.pc = .sending) :
      CallMove b c .raise b { c with pc := .raised }
  | others {b' : CircuitBreaker} : CallMove b c (.others b') b' c

variable {op adapter}

theorem Call.received_move {b b' : CircuitBreaker} {c c' : Call ρ} {e : CallEvent ρ} {r : ρ}
    {m : Moments} (hpc : c.pc = .sending) (he : EndsAttempt op e r m)
    (h : c.received op adapter b r m = (b', c')) : CallMove op adapter b c e b' c' := by
  simp only [Call.received] at h
  split at h
  · rename_i hstop
    cases h
    refine .ended hpc he ?_
    rcases hstop with hstop | hstop
    · exact .inl (by simpa using hstop)
    · exact .inr (.inl hstop)
  · rename_i hgo
    obtain ⟨hretry, hleft⟩ := not_or.mp hgo
    split at h
    · rename_i hdelay
      cases h
      exact .overflowed hpc he (by simpa using hretry) (not_le.mp hleft) hdelay
    · rename_i delay hdelay
      split at h
      · rename_i hstop
        cases h
        exact .ended hpc he (.inr (.inr ⟨delay, hdelay, hstop⟩))
      · rename_i htime
        cases h
        exact .retried hpc he (by simpa using hretry) (not_le.mp hleft) hdelay (not_le.mp htime)

theorem callStep_move {b b' : CircuitBreaker} {c c' : Call ρ} {e : CallEvent ρ}
    (h : callStep op adapter (b, c) e = some (b', c')) : CallMove op adapter b c e b' c' := by
  cases e with
  | refused gateAt =>
      simp only [callStep] at h
      split at h
      · rename_i hpc hgate
        cases h
        exact .refused hpc hgate
      · cases h
  | late gateAt checkedAt =>
      simp only [callStep] at h
      split at h
      · rename_i hpc hgate
        split at h
        · rename_i hlate
          cases h
          exact .late hpc hgate (sub_nonpos.mp hlate)
        · cases h
      · cases h
  | send gateAt checkedAt =>
      simp only [callStep] at h
      split at h
      · rename_i hpc hgate
        split at h
        · cases h
        · rename_i htime
          cases h
          exact .send hpc hgate (sub_pos.mp (not_le.mp htime))
      · cases h
  | answer r m =>
      simp only [callStep] at h
      split at h
      · rename_i hpc
        exact Call.received_move hpc (.answer r m) (Option.some.inj h)
      · cases h
  | cutOff m =>
      simp only [callStep] at h
      split at h
      · rename_i hpc
        exact Call.received_move hpc (.cutOff m) (Option.some.inj h)
      · cases h
  | raise =>
      simp only [callStep] at h
      split at h
      · rename_i hpc
        cases h
        exact .raised (.inl hpc)
      · rename_i hpc
        cases h
        exact .raised (.inr hpc)
      · cases h
  | others breaker =>
      cases h
      exact .others

end

/-! ## What a call can return -/

/-- Every result the call has, or has returned, meets `P`. -/
def Call.Holds {ρ : Type} (P : ρ → Prop) (c : Call ρ) : Prop :=
  (∀ r, c.result = some r → P r) ∧ ∀ r, c.pc = .returned r → P r

/-- The results the operation makes up itself meet `P`, and what it makes of a
result keeps it. -/
structure Operation.Keeps {ρ : Type} (op : Operation ρ) (P : ρ → Prop) : Prop where
  circuitOpen : P op.circuitOpen
  tooLate : P op.tooLate
  cutOff : P op.cutOff
  conclude : ∀ b r, P r → P (op.conclude b r)
  withAttempts : ∀ n r, P r → P (op.withAttempts n r)

section

variable {ρ : Type} {op : Operation ρ} {adapter : ResilientPartnerAdapter} {P : ρ → Prop}

theorem Call.start_holds (adapter : ResilientPartnerAdapter) (now : Time) :
    (adapter.start ρ now).Holds P := ⟨by rintro _ ⟨⟩, by rintro _ ⟨⟩⟩

theorem Call.Holds.mono {Q : ρ → Prop} {c : Call ρ} (h : c.Holds P) (hPQ : ∀ r, P r → Q r) :
    c.Holds Q := ⟨fun r hr => hPQ r (h.1 r hr), fun r hr => hPQ r (h.2 r hr)⟩

theorem Operation.Keeps.finish (hop : op.Keeps P) {c : Call ρ} {r : ρ} (hr : P r) :
    (c.finish op r).Holds P := by
  constructor
  · intro x hx
    cases hx
    exact hr
  · intro x hx
    cases hx
    exact hop.withAttempts _ _ (hop.conclude _ _ hr)

/-- A call whose answers meet `P` returns a result that does. -/
theorem CallMove.holds (hop : op.Keeps P) {b b' : CircuitBreaker} {c c' : Call ρ}
    {e : CallEvent ρ} (hanswer : ∀ r m, e = .answer r m → P r)
    (hm : CallMove op adapter b c e b' c') (h : c.Holds P) : c'.Holds P := by
  have hends : ∀ {r m}, EndsAttempt op e r m → P r := by
    intro r m he
    cases he with
    | answer => exact hanswer _ _ rfl
    | cutOff => exact hop.cutOff
  cases hm with
  | refused => exact hop.finish hop.circuitOpen
  | late =>
      refine hop.finish ?_
      cases hr : c.result with
      | none => exact hop.tooLate
      | some r => exact h.1 r hr
  | send => exact ⟨h.1, by simp⟩
  | ended _ he => exact hop.finish (hends he)
  | retried _ he | overflowed _ he =>
      refine ⟨?_, by simp⟩
      intro x hx
      cases hx
      exact hends he
  | raised => exact ⟨h.1, by simp⟩
  | others => exact h

end

/-! ## The outcome of a call -/

/-- How the event ended an attempt. -/
def CallEvent.attemptOutcome : CallEvent PartnerCreditResult → Option CreditOutcome
  | .answer r _ => some r.outcome
  | .cutOff _ => some .unknown
  | _ => none

def CallEvent.isRefusal {ρ : Type} : CallEvent ρ → Bool
  | .refused _ => true
  | _ => false

/-- An event of the call itself. -/
def CallEvent.isOwn {ρ : Type} : CallEvent ρ → Bool
  | .others _ => false
  | _ => true

/-- The outcomes of the attempts, in order. -/
def attemptOutcomes (es : List (CallEvent PartnerCreditResult)) : List CreditOutcome :=
  es.filterMap CallEvent.attemptOutcome

/-- The circuit was open. -/
def Refused {ρ : Type} (es : List (CallEvent ρ)) : Prop := ∃ e ∈ es, e.isRefusal

/-- The outcome the loop ends with, before the last check. -/
def LastOutcome (es : List (CallEvent PartnerCreditResult)) (o : CreditOutcome) : Prop :=
  (Refused es ∧ o = .notSent) ∨
    (¬ Refused es ∧ o = (attemptOutcomes es).getLast?.getD .notSent)

/-- What the variables of the loop say of the events so far. -/
structure Call.History (es : List (CallEvent PartnerCreditResult))
    (c : Call PartnerCreditResult) : Prop where
  applied : c.possiblyApplied = true ↔ .unknown ∈ attemptOutcomes es
  running : c.pc = .entering ∨ c.pc = .sending → ¬ Refused es ∧
    c.result.map PartnerCreditResult.outcome = (attemptOutcomes es).getLast?
  returned : ∀ r, c.pc = .returned r → ∃ last, LastOutcome es last.outcome ∧
    r.outcome = (creditOperation.conclude c.possiblyApplied last).outcome

section

variable {adapter : ResilientPartnerAdapter} {b b' : CircuitBreaker}
  {c c' : Call PartnerCreditResult} {es : List (CallEvent PartnerCreditResult)}
  {e : CallEvent PartnerCreditResult} {r : PartnerCreditResult} {m : Moments}

@[simp] theorem attemptOutcomes_append :
    attemptOutcomes (es ++ [e]) = attemptOutcomes es ++ e.attemptOutcome.toList := by
  cases h : e.attemptOutcome <;> simp [attemptOutcomes, h]

theorem refused_append {ρ : Type} {es : List (CallEvent ρ)} {e : CallEvent ρ} :
    Refused (es ++ [e]) ↔ Refused es ∨ e.isRefusal = true := by
  simp [Refused, or_and_right, exists_or]

theorem EndsAttempt.outcome (he : EndsAttempt creditOperation e r m) :
    e.attemptOutcome = some r.outcome ∧ e.isRefusal = false := by
  cases he <;> exact ⟨rfl, rfl⟩

/-- What is noted after an attempt. -/
theorem Call.History.noted (h : c.History es) (hpc : c.pc = .sending)
    (he : EndsAttempt creditOperation e r m) :
    ((c.noted creditOperation r).possiblyApplied = true ↔
      .unknown ∈ attemptOutcomes (es ++ [e])) ∧
    ¬ Refused (es ++ [e]) ∧ (attemptOutcomes (es ++ [e])).getLast? = some r.outcome := by
  obtain ⟨hout, hgate⟩ := he.outcome
  obtain ⟨hrefused, -⟩ := h.running (.inr hpc)
  refine ⟨?_, ?_, ?_⟩
  · have hcomm : r.outcome = .unknown ↔ .unknown = r.outcome := eq_comm
    simp [Call.noted, hout, h.applied, creditOperation, hcomm]
  · simp [refused_append, hrefused, hgate]
  · simp [hout]

/-- A finished call attempts nothing more. -/
theorem finish_not_running {P : Prop} (running : (c.finish creditOperation r).pc = .entering ∨
    (c.finish creditOperation r).pc = .sending) : P := by
  rcases running with hpc | hpc <;> cases hpc

theorem Call.History.step (h : c.History es)
    (hm : CallMove creditOperation adapter b c e b' c') : c'.History (es ++ [e]) := by
  cases hm with
  | refused hpc hgate =>
      refine ⟨?_, finish_not_running, ?_⟩
      · simpa [CallEvent.attemptOutcome, Call.finish] using h.applied
      intro x hx
      cases hx
      exact ⟨creditOperation.circuitOpen, .inl ⟨refused_append.mpr (.inr rfl), rfl⟩, rfl⟩
  | late hpc hgate hlate =>
      obtain ⟨hrefused, hresult⟩ := h.running (.inl hpc)
      refine ⟨?_, finish_not_running, ?_⟩
      · simpa [CallEvent.attemptOutcome, Call.finish] using h.applied
      intro x hx
      cases hx
      refine ⟨c.result.getD creditOperation.tooLate, .inr ⟨?_, ?_⟩, rfl⟩
      · simp [refused_append, hrefused, CallEvent.isRefusal]
      · simp only [attemptOutcomes_append, CallEvent.attemptOutcome, Option.toList_none,
          List.append_nil, ← hresult]
        cases c.result <;> rfl
  | send hpc hgate htime =>
      obtain ⟨hrefused, hresult⟩ := h.running (.inl hpc)
      refine ⟨by simpa [CallEvent.attemptOutcome] using h.applied, fun _ => ⟨?_, ?_⟩, by simp⟩
      · simp [refused_append, hrefused, CallEvent.isRefusal]
      · simpa [CallEvent.attemptOutcome] using hresult
  | @ended _ r _ hpc he hstop =>
      obtain ⟨happlied, hrefused, hlast⟩ := h.noted hpc he
      refine ⟨happlied, finish_not_running, ?_⟩
      intro x hx
      cases hx
      exact ⟨r, .inr ⟨hrefused, by rw [hlast]; rfl⟩, rfl⟩
  | retried hpc he =>
      obtain ⟨happlied, hrefused, hlast⟩ := h.noted hpc he
      exact ⟨happlied, fun _ => ⟨hrefused, hlast.symm⟩, by simp⟩
  | overflowed hpc he =>
      obtain ⟨happlied, -, -⟩ := h.noted hpc he
      refine ⟨happlied, ?_, by simp⟩
      rintro (hpc | hpc) <;> cases hpc
  | raised hpc =>
      refine ⟨by simpa [CallEvent.attemptOutcome] using h.applied, ?_, by simp⟩
      rintro (hpc | hpc) <;> cases hpc
  | others =>
      have hrefused : Refused (es ++ [.others b']) ↔ Refused es := by
        simp [refused_append, CallEvent.isRefusal]
      have houtcomes : attemptOutcomes (es ++ [.others b']) = attemptOutcomes es := by
        simp [CallEvent.attemptOutcome]
      refine ⟨?_, ?_, ?_⟩
      · rw [houtcomes]
        exact h.applied
      · rw [houtcomes, hrefused]
        exact h.running
      · simp only [LastOutcome, houtcomes, hrefused]
        exact h.returned

theorem Call.history {now : Time}
    (h : Runs.run (callStep creditOperation adapter) (b, adapter.start _ now) es = some (b', c)) :
    c.History es := by
  induction es using List.reverseRecOn generalizing b' c with
  | nil =>
      cases h
      exact ⟨by simp [attemptOutcomes, ResilientPartnerAdapter.start],
        fun _ => ⟨by simp [Refused], rfl⟩, by rintro _ ⟨⟩⟩
  | append_singleton es e ih =>
      obtain ⟨⟨b₁, c₁⟩, h₁, h₂⟩ := Runs.run_append.mp h
      obtain ⟨s₂, h₂, h₃⟩ := Runs.run_cons_eq_some.mp h₂
      cases h₃
      exact (ih h₁).step (callStep_move h₂)

/-- An attempt ended UNKNOWN, the last one REJECTED, and the call did not end at
an open circuit. -/
def RejectedAfterUnknown (es : List (CallEvent PartnerCreditResult)) : Prop :=
  .unknown ∈ attemptOutcomes es ∧ (attemptOutcomes es).getLast? = some .rejected ∧ ¬ Refused es

/-- When a call with an UNKNOWN attempt returns an outcome that reverses. -/
theorem Call.returned_outcome {now : Time}
    (h : Runs.run (callStep creditOperation adapter) (b, adapter.start _ now) es = some (b', c))
    (hr : c.pc = .returned r) (hunknown : .unknown ∈ attemptOutcomes es) :
    (r.outcome = .rejected ∨ r.outcome = .notSent) ↔ RejectedAfterUnknown es := by
  obtain ⟨last, hlast, hout⟩ := (Call.history h).returned r hr
  have happlied := (Call.history h).applied.mpr hunknown
  have hne : attemptOutcomes es ≠ [] := List.ne_nil_of_mem hunknown
  obtain ⟨o, ho⟩ : ∃ o, (attemptOutcomes es).getLast? = some o :=
    ⟨_, List.getLast?_eq_some_getLast hne⟩
  rw [happlied] at hout
  by_cases hnot : last.outcome = .notSent
  · -- the downgrade is undone
    have houtcome : r.outcome = .unknown := by
      rw [hout]
      simp [creditOperation, hnot]
    have hno : ¬ RejectedAfterUnknown es := by
      rintro ⟨-, hrejected, hrefused⟩
      rcases hlast with ⟨h, -⟩ | ⟨-, h⟩
      · exact hrefused h
      · rw [hrejected, hnot] at h
        cases h
    simp [houtcome, hno]
  · have houtcome : r.outcome = last.outcome := by
      rw [hout]
      simp [creditOperation, hnot]
    rcases hlast with ⟨-, h⟩ | ⟨hrefused, h⟩
    · exact absurd h hnot
    · rw [ho, Option.getD_some] at h
      rw [h] at hnot
      rw [houtcome, h]
      simp [RejectedAfterUnknown, hunknown, hrefused, ho, hnot]

end

/-! ## What the saga makes of it -/

section

variable {db db' : Database} {t : Transfer} {status : TransferStatus}

/-- The status `_apply_partner_outcome` leaves a submitted transfer in: reversed
exactly on REJECTED and NOT_SENT. -/
theorem applyPartnerOutcome_status (hn : (db.accounts.map Account.id).Nodup)
    {verificationDelay now wall : Time} {transferId : String} {result : PartnerCreditResult}
    (ht : db.transfer? transferId = some t) (hs : t.status = .partnerSubmitted)
    (h : (applyPartnerOutcome verificationDelay now wall transferId result).run db =
      .ok (status, db')) :
    (∃ t', db'.transfer? transferId = some t' ∧ t'.status = status) ∧
      (status = .reversed ↔ result.outcome = .rejected ∨ result.outcome = .notSent) := by
  obtain ⟨x, rfl, hx, hrun⟩ := applyPartnerOutcome_inv h
  cases hx.symm.trans ht
  rcases hrun with ⟨hmoved, -⟩ | ⟨-, hrun⟩
  · exact absurd hs hmoved
  · cases hrun with
    | settled hout _ hrun =>
        obtain ⟨accts, -, -, -, -, -, rfl⟩ := (settleTransfer_ok hn).mp hrun
        exact ⟨⟨_, transfer?_saved_self rfl ht rfl, rfl⟩, by simp [hout]⟩
    | rejected hout hrun =>
        obtain ⟨clearing, source, -, -, -, -, -, -, rfl⟩ := (reverseTransfer_ok hn).mp hrun
        exact ⟨⟨_, transfer?_saved_self rfl ht rfl, rfl⟩, by simp [hout]⟩
    | unavailable hout hrun =>
        obtain ⟨clearing, source, -, -, -, -, -, -, rfl⟩ := (reverseTransfer_ok hn).mp hrun
        exact ⟨⟨_, transfer?_saved_self rfl ht rfl, rfl⟩, by simp [hout]⟩
    | parked hrejected hnotSent =>
        refine ⟨⟨_, transfer?_saved_self rfl ht rfl, rfl⟩, ?_⟩
        simp only [reduceCtorEq, false_iff, not_or]
        exact ⟨hrejected, hnotSent⟩

/-- A call with an UNKNOWN attempt leaves a submitted transfer unreversed,
whatever its attempts, its breaker and its clock, exactly when it is not the
case that the last attempt was REJECTED and the circuit stayed closed to the
end. -/
theorem unknown_not_reversed_iff (hn : (db.accounts.map Account.id).Nodup)
    {adapter : ResilientPartnerAdapter} {b b' : CircuitBreaker} {startedAt : Time}
    {es : List (CallEvent PartnerCreditResult)} {c : Call PartnerCreditResult}
    {result : PartnerCreditResult}
    (hcall : Runs.run (callStep creditOperation adapter) (b, adapter.start _ startedAt) es =
      some (b', c)) (hreturned : c.pc = .returned result)
    {verificationDelay now wall : Time} {transferId : String}
    (ht : db.transfer? transferId = some t) (hs : t.status = .partnerSubmitted)
    (h : (applyPartnerOutcome verificationDelay now wall transferId result).run db =
      .ok (status, db')) :
    ((.unknown ∈ attemptOutcomes es → result.outcome ≠ .notSent ∧ result.outcome ≠ .rejected) ↔
      ¬ RejectedAfterUnknown es) ∧
    ((.unknown ∈ attemptOutcomes es →
        ∃ t', db'.transfer? transferId = some t' ∧ t'.status ≠ .reversed) ↔
      ¬ RejectedAfterUnknown es) := by
  obtain ⟨⟨t', ht', hst'⟩, hstatus⟩ := applyPartnerOutcome_status hn ht hs h
  have houtcome : (.unknown ∈ attemptOutcomes es →
      ¬ (result.outcome = .rejected ∨ result.outcome = .notSent)) ↔
      ¬ RejectedAfterUnknown es := by
    constructor
    · intro hclaim hbad
      exact hclaim hbad.1 ((Call.returned_outcome hcall hreturned hbad.1).mpr hbad)
    · intro hgood hunknown hreverses
      exact hgood ((Call.returned_outcome hcall hreturned hunknown).mp hreverses)
  constructor
  · rw [← houtcome]
    refine forall_congr' fun _ => ?_
    rw [not_or, and_comm]
  · rw [← houtcome]
    refine forall_congr' fun _ => ?_
    rw [← hstatus, ← hst']
    constructor
    · rintro ⟨x, hx, hne⟩
      rw [ht'] at hx
      cases hx
      exact hne
    · intro hne
      exact ⟨t', ht', hne⟩

end

/-! ## With the default settings -/

/-- The adapter as `build_partner_registry` builds it. -/
def Settings.adapter (s : Settings) : ResilientPartnerAdapter where
  retry := {
    maxAttempts := s.partnerRetryMaxAttempts
    baseDelaySeconds := s.partnerRetryBaseDelayMs / 1000
    maxDelaySeconds := s.partnerRetryMaxDelayMs / 1000 }
  deadlineSeconds := s.partnerTotalDeadlineSeconds

/-- A breaker as the registry creates it. -/
def Settings.breaker (s : Settings) : CircuitBreaker where
  failureThreshold := s.circuitBreakerFailureThreshold
  cooldownSeconds := s.circuitBreakerCooldownSeconds

/-- A request up to its partner call. -/
def submittedRun : List Action :=
  admission 0 "user_alice" "key-1" sampleBody 5 ++
    [.request 0 (.debit 5 5 sampleTransferId), .request 0 (.submit 5)]

/-- A call of the adapter that starts at instant 5. -/
def sampleCall (es : List (CallEvent PartnerCreditResult)) :
    Option (CircuitBreaker × Call PartnerCreditResult) :=
  Runs.run (callStep creditOperation ({} : Settings).adapter)
    (({} : Settings).breaker, ({} : Settings).adapter.start _ 5) es

/-- The result a call returned. -/
def CallPc.result? {ρ : Type} : CallPc ρ → Option ρ
  | .returned r => some r
  | _ => none

theorem CallPc.result?_eq_some {ρ : Type} {pc : CallPc ρ} {r : ρ} :
    pc.result? = some r ↔ pc = .returned r := by
  cases pc <;> simp [result?]

theorem toOption_eq_some {ε α : Type} {x : Except ε α} {a : α} :
    x.toOption = some a ↔ x = .ok a := by
  cases x <;> simp [Except.toOption]

/-- The first attempt times out, the others find the port closed. -/
def unreachedCall : List (CallEvent PartnerCreditResult) :=
  [.send 5 5, .answer (HttpPartnerAdapter.creditPoints (.error (.other "ReadTimeout"))) ⟨8, 8, 1⟩,
    .send 9 9, .answer (HttpPartnerAdapter.creditPoints (.error .connectError)) ⟨9, 9, 1⟩,
    .send 10 10, .answer (HttpPartnerAdapter.creditPoints (.error .connectError)) ⟨10, 10, 1⟩]

theorem unreachedCall_outcomes :
    attemptOutcomes unreachedCall = [.unknown, .notSent, .notSent] := by
  decide

theorem unknown_not_reversed_iff_unreachedCall :
    ∃ s b c result status db', Runs.run (step sampleConfig) freshState submittedRun = some s ∧
      sampleCall unreachedCall = some (b, c) ∧ c.pc = .returned result ∧
      (applyPartnerOutcome 10 13 13 sampleTransferId result).run s.store.db = .ok (status, db') ∧
      ∃ t', db'.transfer? sampleTransferId = some t' ∧ t'.status ≠ .reversed := by
  have hany : (Runs.run (step sampleConfig) freshState submittedRun).any (fun s =>
      decide (s.store.db.accounts.map Account.id).Nodup &&
      (s.store.db.transfer? sampleTransferId).any (fun t =>
        decide (t.status = .partnerSubmitted)) &&
      (sampleCall unreachedCall).any fun x => x.2.pc.result?.any fun result =>
        ((applyPartnerOutcome 10 13 13 sampleTransferId result).run
          s.store.db).toOption.isSome) = true := by
    decide +kernel
  obtain ⟨s, hs, hall⟩ := (Option.any_eq_true _ _).mp hany
  simp only [Bool.and_eq_true, decide_eq_true_eq] at hall
  obtain ⟨⟨hn, hsub⟩, hcall⟩ := hall
  obtain ⟨t, ht, hst⟩ := (Option.any_eq_true _ _).mp hsub
  obtain ⟨⟨b, c⟩, hc, hreturned⟩ := (Option.any_eq_true _ _).mp hcall
  obtain ⟨result, hpc, hok⟩ := (Option.any_eq_true _ _).mp hreturned
  have hpc := CallPc.result?_eq_some.mp hpc
  obtain ⟨⟨status, db'⟩, hok⟩ := Option.isSome_iff_exists.mp hok
  have hrun := toOption_eq_some.mp hok
  refine ⟨s, b, c, result, status, db', hs, hc, hpc, hrun, ?_⟩
  refine (unknown_not_reversed_iff hn hc hpc ht (of_decide_eq_true hst) hrun).2.mpr ?_ ?_
  · rintro ⟨-, hlast, -⟩
    rw [unreachedCall_outcomes] at hlast
    cases hlast
  · rw [unreachedCall_outcomes]
    decide

/-- The first attempt times out, the second is answered with a 422. -/
def rejectedCall : List (CallEvent PartnerCreditResult) :=
  [.send 5 5, .answer (HttpPartnerAdapter.creditPoints (.error (.other "ReadTimeout"))) ⟨8, 8, 1⟩,
    .send 9 9, .answer (HttpPartnerAdapter.creditPoints
      (.ok ⟨422, some (.obj [("error", .str "MEMBER_NOT_FOUND")])⟩)) ⟨9, 9, 1⟩]

/-- The transfer is reversed although the first attempt may have been applied, or
may still be. -/
theorem unknown_then_rejected_reversed :
    ∃ s b c result status db', Runs.run (step sampleConfig) freshState submittedRun = some s ∧
      sampleCall rejectedCall = some (b, c) ∧ c.pc = .returned result ∧
      .unknown ∈ attemptOutcomes rejectedCall ∧
      (applyPartnerOutcome 10 13 13 sampleTransferId result).run s.store.db = .ok (status, db') ∧
      ∃ t', db'.transfer? sampleTransferId = some t' ∧ t'.status = .reversed := by
  have hany : (Runs.run (step sampleConfig) freshState submittedRun).any (fun s =>
      (sampleCall rejectedCall).any fun x => x.2.pc.result?.any fun result =>
        ((applyPartnerOutcome 10 13 13 sampleTransferId result).run s.store.db).toOption.any
          fun y => (y.2.transfer? sampleTransferId).any fun t =>
            decide (t.status = .reversed)) = true := by
    decide +kernel
  obtain ⟨s, hs, hcall⟩ := (Option.any_eq_true _ _).mp hany
  obtain ⟨⟨b, c⟩, hc, hreturned⟩ := (Option.any_eq_true _ _).mp hcall
  obtain ⟨result, hpc, happlied⟩ := (Option.any_eq_true _ _).mp hreturned
  obtain ⟨⟨status, db'⟩, hrun, hreversed⟩ := (Option.any_eq_true _ _).mp happlied
  obtain ⟨t, ht, hst⟩ := (Option.any_eq_true _ _).mp hreversed
  exact ⟨s, b, c, result, status, db', hs, hc, CallPc.result?_eq_some.mp hpc, by decide,
    toOption_eq_some.mp hrun, t, ht, of_decide_eq_true hst⟩

end LoyaltyTransfer
