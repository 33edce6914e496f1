/-
# `LoyaltyTransfer.Breaker` — the circuit breaker on its own

`CircuitBreaker` of `app/partners/resilience.py`, first under any sequence of
calls of its interface, then as a gate that many calls pass: a call is admitted
by `allow_request` and records its outcome later, when the breaker may have
moved on.  The module text draws four state changes:

    CLOSED    ─▶ OPEN         N consecutive failures
    OPEN      ─▶ HALF_OPEN    cooldown elapsed
    HALF_OPEN ─▶ CLOSED       trial succeeds
    HALF_OPEN ─▶ OPEN         trial fails

**Proved here.**  What the counter, the cooldown and the trial flag mean over
every sequence of calls (`breaker_calls`).  Whose outcome it is that is recorded
the breaker never asks: a run of the gate keeps to the four changes exactly when
no attempt admitted before the last opening records its outcome outside CLOSED
or as the failure that reaches the threshold (`changes_documented_iff`).
-/
import LoyaltyTransfer.Resilience

namespace LoyaltyTransfer

/-- `CircuitBreaker.__init__`. -/
def CircuitBreaker.new (failureThreshold : Int) (cooldownSeconds : Time) : CircuitBreaker where
  failureThreshold := failureThreshold
  cooldownSeconds := cooldownSeconds

/-! ## What one call does -/

/-- `record_failure` comes to `_open`. -/
def CircuitBreaker.opens (b : CircuitBreaker) : Prop :=
  b.state = .halfOpen ∨ b.failureThreshold ≤ b.consecutiveFailures + 1

instance (b : CircuitBreaker) : Decidable b.opens := inferInstanceAs (Decidable (_ ∨ _))

/-- The flag is set in HALF_OPEN only, and the counter that opened the breaker
is kept until a success. -/
structure CircuitBreaker.Sound (b : CircuitBreaker) : Prop where
  trial : b.trialInFlight = true → b.state = .halfOpen
  counted : b.state ≠ .closed → b.failureThreshold ≤ b.consecutiveFailures

section

variable {b : CircuitBreaker} {now : Time}

theorem CircuitBreaker.readState_cases (b : CircuitBreaker) (now : Time) :
    (b.state = .opened ∧ b.cooldownSeconds ≤ now - b.openedAt ∧
      b.readState now = { b with state := .halfOpen }) ∨
    (¬ (b.state = .opened ∧ b.cooldownSeconds ≤ now - b.openedAt) ∧ b.readState now = b) := by
  by_cases h : b.state = .opened ∧ b.cooldownSeconds ≤ now - b.openedAt
  · exact .inl ⟨h.1, h.2, by simp [readState, h]⟩
  · exact .inr ⟨h, by simp only [readState, if_neg h]⟩

/-- `allow_request`: a request passes a closed breaker, and a half-open one as
its trial. -/
theorem CircuitBreaker.allowRequest_cases (b : CircuitBreaker) (now : Time) :
    (b.state = .closed ∧ b.allowRequest now = (true, b)) ∨
    ((b.readState now).state = .halfOpen ∧ b.trialInFlight = false ∧
      b.allowRequest now = (true, { b.readState now with trialInFlight := true })) ∨
    ((b.readState now).state ≠ .closed ∧
      ((b.readState now).state = .opened ∨ b.trialInFlight = true) ∧
      b.allowRequest now = (false, b.readState now)) := by
  have hflag : (b.readState now).trialInFlight = b.trialInFlight := by
    rcases b.readState_cases now with ⟨-, -, e⟩ | ⟨-, e⟩ <;> rw [e]
  cases hs : (b.readState now).state with
  | closed =>
      rcases b.readState_cases now with ⟨-, -, e⟩ | ⟨-, e⟩
      · rw [e] at hs
        cases hs
      · rw [e] at hs
        exact .inl ⟨hs, by simp [allowRequest, e, hs]⟩
  | opened => exact .inr (.inr ⟨by simp, .inl rfl, by simp [allowRequest, hs]⟩)
  | halfOpen =>
      cases ht : b.trialInFlight with
      | false => exact .inr (.inl ⟨rfl, rfl, by simp [allowRequest, hs, hflag, ht]⟩)
      | true => exact .inr (.inr ⟨by simp, .inr rfl, by simp [allowRequest, hs, hflag, ht]⟩)

theorem CircuitBreaker.recordFailure_cases (b : CircuitBreaker) (now : Time) :
    (b.opens ∧ (b.recordFailure now).state = .opened ∧ (b.recordFailure now).openedAt = now) ∨
    (¬ b.opens ∧ (b.recordFailure now).state = b.state ∧
      (b.recordFailure now).openedAt = b.openedAt) := by
  by_cases hs : b.state = .halfOpen
  · exact .inl ⟨.inl hs, by simp [recordFailure, hs, CircuitBreaker.open]⟩
  · by_cases hc : b.failureThreshold ≤ b.consecutiveFailures + 1
    · exact .inl ⟨.inr hc, by simp [recordFailure, hs, hc, CircuitBreaker.open]⟩
    · exact .inr ⟨not_or.mpr ⟨hs, hc⟩, by simp [recordFailure, hs, hc]⟩

@[simp] theorem CircuitBreaker.recordFailure_trialInFlight :
    (b.recordFailure now).trialInFlight = false := by
  simp only [recordFailure, CircuitBreaker.open]
  split <;> [skip; split] <;> rfl

@[simp] theorem CircuitBreaker.recordFailure_failureThreshold :
    (b.recordFailure now).failureThreshold = b.failureThreshold := by
  simp only [recordFailure, CircuitBreaker.open]
  split <;> [skip; split] <;> rfl

theorem CircuitBreaker.recordFailure_consecutiveFailures :
    (b.recordFailure now).consecutiveFailures =
      if b.state = .halfOpen then b.consecutiveFailures else b.consecutiveFailures + 1 := by
  simp only [recordFailure, CircuitBreaker.open]
  split <;> [skip; split] <;> rfl

theorem CircuitBreaker.Sound.readState (h : b.Sound) : (b.readState now).Sound := by
  rcases b.readState_cases now with ⟨hs, -, e⟩ | ⟨-, e⟩
  · rw [e]
    exact ⟨fun _ => rfl, fun _ => h.counted (by simp [hs])⟩
  · rwa [e]

theorem CircuitBreaker.Sound.allowRequest (h : b.Sound) : (b.allowRequest now).2.Sound := by
  rcases b.allowRequest_cases now with ⟨-, e⟩ | ⟨hs, -, e⟩ | ⟨-, -, e⟩
  · rwa [e]
  · rw [e]
    exact ⟨fun _ => hs, h.readState.counted⟩
  · rw [e]
    exact h.readState

theorem CircuitBreaker.Sound.recordSuccess : b.recordSuccess.Sound :=
  ⟨by rintro ⟨⟩, fun h => absurd rfl h⟩

theorem CircuitBreaker.Sound.recordFailure (h : b.Sound) : (b.recordFailure now).Sound := by
  refine ⟨by simp, ?_⟩
  rw [recordFailure_failureThreshold, recordFailure_consecutiveFailures]
  intro hs
  by_cases hhalf : b.state = .halfOpen
  · rw [if_pos hhalf]
    exact h.counted (by simp [hhalf])
  · rw [if_neg hhalf]
    rcases b.recordFailure_cases now with ⟨hopens, -, -⟩ | ⟨-, e, -⟩
    · have := hopens.resolve_left hhalf
      push_cast
      exact this
    · have := h.counted (e ▸ hs)
      push_cast
      omega

end

/-! ## Sequences of calls -/

/-- A call of the interface, with the clock at that moment. -/
inductive BreakerCall where
  | state (now : Time)
  | allowRequest (now : Time)
  | recordSuccess (now : Time)
  | recordFailure (now : Time)
  deriving DecidableEq

def BreakerCall.now : BreakerCall → Time
  | .state now | .allowRequest now | .recordSuccess now | .recordFailure now => now

def BreakerCall.isSuccess : BreakerCall → Bool
  | .recordSuccess _ => true
  | _ => false

def BreakerCall.isFailure : BreakerCall → Bool
  | .recordFailure _ => true
  | _ => false

/-- The breaker after the call. -/
def CircuitBreaker.after (b : CircuitBreaker) : BreakerCall → CircuitBreaker
  | .state now => b.readState now
  | .allowRequest now => (b.allowRequest now).2
  | .recordSuccess _ => b.recordSuccess
  | .recordFailure now => b.recordFailure now

/-- The call is an `allow_request` that returns true. -/
def CircuitBreaker.admits (b : CircuitBreaker) : BreakerCall → Bool
  | .allowRequest now => (b.allowRequest now).1
  | _ => false

def CircuitBreaker.afterAll (b : CircuitBreaker) (calls : List BreakerCall) : CircuitBreaker :=
  calls.foldl CircuitBreaker.after b

/-- How many of the calls are an `allow_request` that returns true. -/
def CircuitBreaker.admissions : CircuitBreaker → List BreakerCall → Nat
  | _, [] => 0
  | b, call :: calls => (if b.admits call then 1 else 0) + (b.after call).admissions calls

/-- The breaker is HALF_OPEN after each of the calls. -/
def CircuitBreaker.StaysHalfOpen : CircuitBreaker → List BreakerCall → Prop
  | _, [] => True
  | b, call :: calls => (b.after call).state = .halfOpen ∧ (b.after call).StaysHalfOpen calls

/-- The calls of `record_failure` since the last `record_success`. -/
def failuresSinceSuccess (calls : List BreakerCall) : Nat :=
  (calls.reverse.takeWhile (fun call => !call.isSuccess)).countP BreakerCall.isFailure

section

variable {b : CircuitBreaker} {call : BreakerCall} {calls : List BreakerCall}

@[simp] theorem CircuitBreaker.afterAll_nil : b.afterAll [] = b := rfl

@[simp] theorem CircuitBreaker.afterAll_cons :
    b.afterAll (call :: calls) = (b.after call).afterAll calls := rfl

theorem CircuitBreaker.afterAll_append {more : List BreakerCall} :
    b.afterAll (calls ++ more) = (b.afterAll calls).afterAll more := List.foldl_append

theorem failuresSinceSuccess_append :
    failuresSinceSuccess (calls ++ [call]) =
      if call.isSuccess then 0
      else failuresSinceSuccess calls + (if call.isFailure then 1 else 0) := by
  cases hs : call.isSuccess <;>
    simp [failuresSinceSuccess, List.countP_cons, hs]

theorem CircuitBreaker.new_sound {threshold : Int} {cooldown : Time} :
    (CircuitBreaker.new threshold cooldown).Sound := ⟨by rintro ⟨⟩, fun h => absurd rfl h⟩

theorem CircuitBreaker.Sound.after (h : b.Sound) : (b.after call).Sound := by
  cases call with
  | state now => exact h.readState
  | allowRequest now => exact h.allowRequest
  | recordSuccess now => exact Sound.recordSuccess
  | recordFailure now => exact h.recordFailure

theorem CircuitBreaker.Sound.afterAll (h : b.Sound) : (b.afterAll calls).Sound := by
  induction calls generalizing b with
  | nil => exact h
  | cons call calls ih => exact ih h.after

/-- What reading the state, or asking at the gate, leaves as it is. -/
theorem CircuitBreaker.after_gate (b : CircuitBreaker) (call : BreakerCall)
    (hs : call.isSuccess = false) (hf : call.isFailure = false) :
    (b.after call).consecutiveFailures = b.consecutiveFailures ∧
      (b.after call).openedAt = b.openedAt ∧
      ((b.after call).state = .closed ↔ b.state = .closed) := by
  have hread : ∀ now, (b.readState now).consecutiveFailures = b.consecutiveFailures ∧
      (b.readState now).openedAt = b.openedAt ∧
      ((b.readState now).state = .closed ↔ b.state = .closed) := by
    intro now
    rcases b.readState_cases now with ⟨hs, -, e⟩ | ⟨-, e⟩
    · simp [e, hs]
    · simp [e]
  cases call with
  | state now => exact hread now
  | allowRequest now =>
      simp only [CircuitBreaker.after]
      rcases b.allowRequest_cases now with ⟨hs, e⟩ | ⟨-, -, e⟩ | ⟨-, -, e⟩
      · simp [e]
      · rw [e]
        exact hread now
      · rw [e]
        exact hread now
  | recordSuccess now => cases hs
  | recordFailure now => cases hf

/-- No call changes the threshold or the cooldown. -/
theorem CircuitBreaker.after_parameters (b : CircuitBreaker) (call : BreakerCall) :
    (b.after call).failureThreshold = b.failureThreshold ∧
      (b.after call).cooldownSeconds = b.cooldownSeconds := by
  cases call with
  | state now =>
      simp only [CircuitBreaker.after]
      rcases b.readState_cases now with ⟨-, -, e⟩ | ⟨-, e⟩ <;> simp [e]
  | allowRequest now =>
      simp only [CircuitBreaker.after, CircuitBreaker.allowRequest]
      rcases b.readState_cases now with ⟨-, -, e⟩ | ⟨-, e⟩ <;> rw [e] <;> split <;>
        [skip; split; skip; skip; split; skip] <;> exact ⟨rfl, rfl⟩
  | recordSuccess now => exact ⟨rfl, rfl⟩
  | recordFailure now =>
      simp only [CircuitBreaker.after, CircuitBreaker.recordFailure, CircuitBreaker.open]
      split <;> [skip; split] <;> exact ⟨rfl, rfl⟩

theorem CircuitBreaker.afterAll_parameters :
    (b.afterAll calls).failureThreshold = b.failureThreshold ∧
      (b.afterAll calls).cooldownSeconds = b.cooldownSeconds := by
  induction calls generalizing b with
  | nil => exact ⟨rfl, rfl⟩
  | cons call calls ih =>
      obtain ⟨h₁, h₂⟩ := b.after_parameters call
      exact ⟨ih.1.trans h₁, ih.2.trans h₂⟩

/-- The counter of a closed breaker. -/
theorem CircuitBreaker.closed_counted (hthreshold : 0 < b.failureThreshold)
    (hzero : b.consecutiveFailures = 0) (hclosed : (b.afterAll calls).state = .closed) :
    (b.afterAll calls).consecutiveFailures = failuresSinceSuccess calls ∧
      ((b.afterAll calls).consecutiveFailures : Int) < b.failureThreshold := by
  induction calls using List.reverseRecOn with
  | nil => exact ⟨hzero, by simpa [hzero] using hthreshold⟩
  | append_singleton calls call ih =>
      rw [afterAll_append, afterAll_cons, afterAll_nil] at hclosed ⊢
      rw [failuresSinceSuccess_append]
      cases call with
      | recordSuccess now => exact ⟨rfl, hthreshold⟩
      | recordFailure now =>
          rcases (b.afterAll calls).recordFailure_cases now with
            ⟨-, hopened, -⟩ | ⟨hno, hsame, -⟩
          · cases hopened.symm.trans hclosed
          · obtain ⟨hcount, -⟩ := ih (hsame.symm.trans hclosed)
            obtain ⟨hhalf, hbelow⟩ := not_or.mp hno
            rw [afterAll_parameters.1] at hbelow
            simp only [CircuitBreaker.after, recordFailure_consecutiveFailures, if_neg hhalf]
            refine ⟨?_, ?_⟩
            · rw [hcount]
              rfl
            · push_cast
              omega
      | state now =>
          obtain ⟨hcount, -, hiff⟩ := (b.afterAll calls).after_gate (.state now) rfl rfl
          rw [hcount]
          exact ih (hiff.mp hclosed)
      | allowRequest now =>
          obtain ⟨hcount, -, hiff⟩ :=
            (b.afterAll calls).after_gate (.allowRequest now) rfl rfl
          rw [hcount]
          exact ih (hiff.mp hclosed)

/-- With a clock that does not go back, the instant of the last opening does not
either. -/
theorem CircuitBreaker.le_openedAt {t : Time} (hb : t ≤ b.openedAt)
    (hclock : ∀ call ∈ calls, t ≤ call.now) : t ≤ (b.afterAll calls).openedAt := by
  induction calls generalizing b with
  | nil => exact hb
  | cons call calls ih =>
      refine ih ?_ fun c hc => hclock c (List.mem_cons_of_mem _ hc)
      cases call with
      | recordSuccess now => exact hb
      | recordFailure now =>
          have hnow : t ≤ now := hclock _ List.mem_cons_self
          rcases b.recordFailure_cases now with ⟨-, -, e⟩ | ⟨-, -, e⟩
          · exact hnow.trans_eq e.symm
          · exact hb.trans_eq e.symm
      | state now =>
          exact hb.trans_eq (b.after_gate (.state now) rfl rfl).2.1.symm
      | allowRequest now =>
          exact hb.trans_eq (b.after_gate (.allowRequest now) rfl rfl).2.1.symm

/-- A failure that leaves the breaker OPEN has just opened it, also when it was
OPEN before. -/
theorem CircuitBreaker.Sound.openedAt_of_opening (h : b.Sound) {now : Time}
    (hopened : (b.recordFailure now).state = .opened) : (b.recordFailure now).openedAt = now := by
  rcases b.recordFailure_cases now with ⟨-, -, e⟩ | ⟨hno, hsame, -⟩
  · exact e
  · have hcount := h.counted (by rw [← hsame, hopened]; simp)
    exact absurd (.inr (by omega)) hno

/-- An open breaker refuses until its cooldown is over. -/
theorem CircuitBreaker.allowRequest_opened {now : Time} (hs : b.state = .opened)
    (hnow : now - b.openedAt < b.cooldownSeconds) : b.allowRequest now = (false, b) := by
  have hread : b.readState now = b := by
    rcases b.readState_cases now with ⟨-, h, -⟩ | ⟨-, e⟩
    · exact absurd h (not_le.mpr hnow)
    · exact e
  simp [CircuitBreaker.allowRequest, hread, hs]

/-- While the trial is in flight nobody else passes, and only a record ends it. -/
theorem CircuitBreaker.trial_holds (hs : b.state = .halfOpen) (ht : b.trialInFlight = true)
    (hstays : (b.after call).state = .halfOpen) :
    b.admits call = false ∧ (b.after call).trialInFlight = true := by
  have hread : ∀ now, b.readState now = b := by
    intro now
    rcases b.readState_cases now with ⟨h, -, -⟩ | ⟨-, e⟩
    · rw [hs] at h
      cases h
    · exact e
  cases call with
  | state now =>
      refine ⟨rfl, ?_⟩
      show (b.readState now).trialInFlight = true
      rwa [hread now]
  | allowRequest now =>
      have hgate : b.allowRequest now = (false, b) := by
        simp [CircuitBreaker.allowRequest, hread now, hs, ht]
      simp only [CircuitBreaker.admits, CircuitBreaker.after, hgate]
      exact ⟨trivial, ht⟩
  | recordSuccess now => cases hstays
  | recordFailure now =>
      rcases b.recordFailure_cases now with ⟨-, h, -⟩ | ⟨h, -, -⟩
      · cases h.symm.trans hstays
      · exact absurd (.inl hs) h

theorem CircuitBreaker.admissions_trial (hs : b.state = .halfOpen) (ht : b.trialInFlight = true)
    (hstays : b.StaysHalfOpen calls) : b.admissions calls = 0 := by
  induction calls generalizing b with
  | nil => rfl
  | cons call calls ih =>
      obtain ⟨hno, hflag⟩ := trial_holds hs ht hstays.1
      simp [admissions, hno, ih hstays.1 hflag hstays.2]

/-- A request that passes into HALF_OPEN is the trial. -/
theorem CircuitBreaker.admits_halfOpen (hadmits : b.admits call = true)
    (hstays : (b.after call).state = .halfOpen) : (b.after call).trialInFlight = true := by
  cases call with
  | allowRequest now =>
      simp only [CircuitBreaker.admits, CircuitBreaker.after] at hadmits hstays ⊢
      rcases b.allowRequest_cases now with ⟨hs, e⟩ | ⟨-, -, e⟩ | ⟨-, -, e⟩
      · rw [e, hs] at hstays
        cases hstays
      · rw [e]
      · rw [e] at hadmits
        cases hadmits
  | _ => cases hadmits

theorem CircuitBreaker.admissions_halfOpen (hstays : b.StaysHalfOpen calls) :
    b.admissions calls ≤ 1 := by
  induction calls generalizing b with
  | nil => exact Nat.zero_le 1
  | cons call calls ih =>
      simp only [admissions]
      cases hadmits : b.admits call with
      | false => simpa using ih hstays.2
      | true =>
          have hflag := admits_halfOpen hadmits hstays.1
          rw [admissions_trial hstays.1 hflag hstays.2]
          simp

/-- Every sequence of calls on a new breaker, with a clock that does not go back.
The second part speaks of every failure that left the breaker OPEN, the last
opening among them. -/
theorem breaker_calls {threshold : Int} {cooldown : Time} (hthreshold : 1 ≤ threshold)
    (hclock : calls.Pairwise fun c d => c.now ≤ d.now)
    (hb : b = CircuitBreaker.new threshold cooldown) :
    ((b.afterAll calls).state = .closed →
      (b.afterAll calls).consecutiveFailures = failuresSinceSuccess calls ∧
        ((b.afterAll calls).consecutiveFailures : Int) < threshold) ∧
    (∀ before after t now, calls = before ++ .recordFailure t :: after →
      (b.afterAll (before ++ [.recordFailure t])).state = .opened →
      now - t < cooldown → (b.afterAll calls).state = .opened →
      ((b.afterAll calls).allowRequest now).1 = false) ∧
    (∀ before within, calls = before ++ within → (b.afterAll before).StaysHalfOpen within →
      (b.afterAll before).admissions within ≤ 1) := by
  subst hb
  refine ⟨?_, ?_, ?_⟩
  · intro hclosed
    exact CircuitBreaker.closed_counted hthreshold rfl hclosed
  · rintro before after t now rfl hopening hnow hopened
    rw [CircuitBreaker.afterAll_append, CircuitBreaker.afterAll_cons] at hopening hopened ⊢
    have hat := (CircuitBreaker.new_sound.afterAll).openedAt_of_opening hopening
    have hlater : ∀ c ∈ after, t ≤ c.now :=
      (List.pairwise_cons.mp (List.pairwise_append.mp hclock).2.1).1
    have hle := CircuitBreaker.le_openedAt hat.ge hlater
    rw [CircuitBreaker.allowRequest_opened hopened]
    rw [CircuitBreaker.afterAll_parameters.2, (CircuitBreaker.after_parameters _ _).2,
      CircuitBreaker.afterAll_parameters.2]
    show now - _ < cooldown
    exact (sub_le_sub_left hle now).trans_lt hnow
  · rintro before within rfl hstays
    exact CircuitBreaker.admissions_halfOpen hstays

end

/-- Two failures open the breaker; a request within the cooldown is refused, and
so is the next. -/
theorem breaker_calls_refused :
    (((CircuitBreaker.new 2 30).afterAll
      [.recordFailure 1, .recordFailure 2, .allowRequest 10]).allowRequest 11).1 = false :=
  (breaker_calls (by decide : (1 : Int) ≤ 2) (by decide +kernel) rfl).2.1
    [.recordFailure 1] [.allowRequest 10] 2 11 rfl (by decide +kernel) (by decide +kernel)
    (by decide +kernel)

/-! ## The gate -/

/-- An attempt that `allow_request` let pass and whose end is not recorded yet:
the call that makes it, how often the breaker had opened, and whether it passed
a half-open breaker. -/
structure Admission (κ : Type) where
  call : κ
  openings : Nat
  trial : Bool
  deriving DecidableEq

/-- The breaker, how often `_open` ran, the failures recorded since the last
success, and the attempts on their way. -/
structure Gate (κ : Type) where
  breaker : CircuitBreaker
  openings : Nat := 0
  failures : Nat := 0
  admitted : List (Admission κ) := []

/-- What a call does at the gate; `leave` ends an attempt without a record. -/
inductive GateEvent (κ : Type) where
  | state (now : Time)
  | allowRequest (call : κ) (now : Time)
  | recordSuccess (call : κ)
  | recordFailure (call : κ) (now : Time)
  | leave (call : κ)

section

variable {κ : Type} [DecidableEq κ]

def Gate.admission? (g : Gate κ) (call : κ) : Option (Admission κ) :=
  g.admitted.find? fun a => a.call = call

/-- The attempt of `call` is over. -/
def Gate.without (g : Gate κ) (call : κ) : List (Admission κ) :=
  g.admitted.filter fun a => a.call ≠ call

def gateStep (g : Gate κ) : GateEvent κ → Option (Gate κ)
  | .state now => some { g with breaker := g.breaker.readState now }
  | .allowRequest call now =>
      match g.admission? call, g.breaker.allowRequest now with
      | none, (true, b) => some { g with
          breaker := b
          admitted := ⟨call, g.openings, decide (b.state = .halfOpen)⟩ :: g.admitted }
      | none, (false, b) => some { g with breaker := b }
      | some _, _ => none
  | .recordSuccess call =>
      (g.admission? call).map fun _ => { g with
        breaker := g.breaker.recordSuccess
        failures := 0
        admitted := g.without call }
  | .recordFailure call now =>
      (g.admission? call).map fun _ => {
        breaker := g.breaker.recordFailure now
        openings := if g.breaker.opens then g.openings + 1 else g.openings
        failures := g.failures + 1
        admitted := g.without call }
  | .leave call => (g.admission? call).map fun _ => { g with admitted := g.without call }

/-- The state changes of the module text, with what brings each about. -/
inductive Documented (g : Gate κ) : GateEvent κ → BreakerState → BreakerState → Prop
  | failed {call : κ} {now : Time} (hcount : g.breaker.failureThreshold ≤ g.failures + 1) :
      Documented g (.recordFailure call now) .closed .opened
  | cooled {e : GateEvent κ} {now : Time}
      (he : e = .state now ∨ ∃ call, e = .allowRequest call now)
      (hcool : g.breaker.cooldownSeconds ≤ now - g.breaker.openedAt) :
      Documented g e .opened .halfOpen
  | trialSucceeded {call : κ} {a : Admission κ} (ha : g.admission? call = some a)
      (htrial : a.trial = true) (hthis : a.openings = g.openings) :
      Documented g (.recordSuccess call) .halfOpen .closed
  | trialFailed {call : κ} {now : Time} {a : Admission κ} (ha : g.admission? call = some a)
      (htrial : a.trial = true) (hthis : a.openings = g.openings) :
      Documented g (.recordFailure call now) .halfOpen .opened

/-- The attempt of `call` was admitted before the breaker last opened. -/
def Gate.Stale (g : Gate κ) (call : κ) : Prop :=
  ∃ a, g.admission? call = some a ∧ a.openings < g.openings

instance (g : Gate κ) (call : κ) : Decidable (g.Stale call) :=
  decidable_of_iff ((g.admission? call).any fun a => a.openings < g.openings) (by
    simp [Gate.Stale, Option.any_eq_true])

/-- The event records the outcome of the attempt of `call`. -/
def GateEvent.Records (call : κ) : GateEvent κ → Prop
  | .recordSuccess c => c = call
  | .recordFailure c _ => c = call
  | _ => False

/-- What a step should keep to. -/
structure KeepsToDiagram (g : Gate κ) (e : GateEvent κ) (g' : Gate κ) : Prop where
  documented : g.breaker.state ≠ g'.breaker.state →
    Documented g e g.breaker.state g'.breaker.state
  notStraight : ¬ (g.breaker.state = .opened ∧ g'.breaker.state = .closed)
  stale : ∀ call, e.Records call → g.Stale call →
    ¬ (g.breaker.state ≠ .closed ∧ g'.breaker.state = .closed) ∧ g'.openings = g.openings

/-- No attempt from before the last opening has a say. -/
def Gate.Timely (g : Gate κ) : GateEvent κ → Prop
  | .recordSuccess call => g.Stale call → g.breaker.state = .closed
  | .recordFailure call _ => g.Stale call → g.breaker.state = .closed ∧
      (g.breaker.consecutiveFailures + 1 : Int) < g.breaker.failureThreshold
  | _ => True

instance (g : Gate κ) : DecidablePred g.Timely
  | .state _ | .allowRequest _ _ | .leave _ => isTrue trivial
  | .recordSuccess call => inferInstanceAs (Decidable (g.Stale call → _))
  | .recordFailure call _ => inferInstanceAs (Decidable (g.Stale call → _ ∧ _))

/-- An event of the gate, inverted. -/
inductive GateMove (g : Gate κ) : GateEvent κ → Gate κ → Prop
  | read {now : Time} : GateMove g (.state now) { g with breaker := g.breaker.readState now }
  | refused {call : κ} {now : Time} (hnew : g.admission? call = none)
      (hgate : g.breaker.allowRequest now = (false, g.breaker.readState now)) :
      GateMove g (.allowRequest call now) { g with breaker := g.breaker.readState now }
  | passed {call : κ} {now : Time} (hnew : g.admission? call = none)
      (hgate : g.breaker.allowRequest now = (true, g.breaker))
      (hclosed : g.breaker.state = .closed) :
      GateMove g (.allowRequest call now)
        { g with admitted := ⟨call, g.openings, false⟩ :: g.admitted }
  | tried {call : κ} {now : Time} (hnew : g.admission? call = none)
      (hgate : g.breaker.allowRequest now =
        (true, { g.breaker.readState now with trialInFlight := true }))
      (hflag : g.breaker.trialInFlight = false)
      (hhalf : (g.breaker.readState now).state = .halfOpen) :
      GateMove g (.allowRequest call now) { g with
        breaker := { g.breaker.readState now with trialInFlight := true }
        admitted := ⟨call, g.openings, true⟩ :: g.admitted }
  | succeeded {call : κ} {a : Admission κ} (ha : g.admission? call = some a) :
      GateMove g (.recordSuccess call) { g with
        breaker := g.breaker.recordSuccess
        failures := 0
        admitted := g.without call }
  | failed {call : κ} {now : Time} {a : Admission κ} (ha : g.admission? call = some a) :
      GateMove g (.recordFailure call now) {
        breaker := g.breaker.recordFailure now
        openings := if g.breaker.opens then g.openings + 1 else g.openings
        failures := g.failures + 1
        admitted := g.without call }
  | left {call : κ} {a : Admission κ} (ha : g.admission? call = some a) :
      GateMove g (.leave call) { g with admitted := g.without call }

variable {g g' : Gate κ} {e : GateEvent κ}

theorem gateStep_move (h : gateStep g e = some g') : GateMove g e g' := by
  cases e with
  | state now =>
      cases h
      exact .read
  | allowRequest call now =>
      simp only [gateStep] at h
      cases hnew : g.admission? call with
      | some a => simp [hnew] at h
      | none =>
          rcases g.breaker.allowRequest_cases now with
            ⟨hs, hgate⟩ | ⟨hs, hflag, hgate⟩ | ⟨-, -, hgate⟩
          · simp only [hnew, hgate, hs, reduceCtorEq, decide_false, Option.some.injEq] at h
            subst h
            exact .passed hnew hgate hs
          · have htrial := decide_eq_true hs
            simp only [hnew, hgate, htrial, Option.some.injEq] at h
            subst h
            exact .tried hnew hgate hflag hs
          · simp only [hnew, hgate, Option.some.injEq] at h
            subst h
            exact .refused hnew hgate
  | recordSuccess call =>
      obtain ⟨a, ha, rfl⟩ := Option.map_eq_some_iff.mp h
      exact .succeeded ha
  | recordFailure call now =>
      obtain ⟨a, ha, rfl⟩ := Option.map_eq_some_iff.mp h
      exact .failed ha
  | leave call =>
      obtain ⟨a, ha, rfl⟩ := Option.map_eq_some_iff.mp h
      exact .left ha

/-- What the breaker's variables say of the attempts on their way: none passed
an open breaker, and one that passed since the last opening passed a half-open
one as its trial, as long as the breaker has not closed. -/
structure Gate.Sound (g : Gate κ) : Prop where
  breaker : g.breaker.Sound
  known : ∀ a ∈ g.admitted, a.openings ≤ g.openings
  opened : g.breaker.state = .opened → ∀ a ∈ g.admitted, a.openings < g.openings
  halfOpen : g.breaker.state = .halfOpen →
    ∀ a ∈ g.admitted, a.openings = g.openings → a.trial = true
  counted : g.breaker.state = .closed → g.breaker.consecutiveFailures = g.failures

theorem Gate.mem_admitted {call : κ} {a : Admission κ} (h : g.admission? call = some a) :
    a ∈ g.admitted := List.mem_of_find?_eq_some h

theorem Gate.mem_without {call : κ} {a : Admission κ} (h : a ∈ g.without call) :
    a ∈ g.admitted := List.mem_of_mem_filter h

omit [DecidableEq κ] in
theorem Gate.Sound.readState (h : g.Sound) (now : Time) :
    Gate.Sound { g with breaker := g.breaker.readState now } := by
  rcases g.breaker.readState_cases now with ⟨hs, -, e⟩ | ⟨-, e⟩
  · refine ⟨h.breaker.readState, h.known, ?_, ?_, ?_⟩ <;> simp only [e]
    · intro h
      cases h
    · intro _ a ha hthis
      exact absurd hthis (h.opened hs a ha).ne
    · intro h
      cases h
  · rw [e]
    exact h

theorem Gate.Sound.step (h : g.Sound) (hm : GateMove g e g') : g'.Sound := by
  cases hm with
  | read => exact h.readState _
  | refused => exact h.readState _
  | passed hnew hgate hclosed =>
      refine ⟨h.breaker, ?_, ?_, ?_, h.counted⟩
      · rintro a (_ | ⟨_, ha⟩)
        · exact le_rfl
        · exact h.known a ha
      · intro hs
        cases hclosed.symm.trans hs
      · intro hs
        cases hclosed.symm.trans hs
  | @tried call now hnew hgate hflag hhalf =>
      have hread := h.readState now
      refine ⟨⟨fun _ => hhalf, hread.breaker.counted⟩, ?_, ?_, ?_, hread.counted⟩
      · rintro a (_ | ⟨_, ha⟩)
        · exact le_rfl
        · exact h.known a ha
      · intro hs
        cases hhalf.symm.trans hs
      · rintro hs a (_ | ⟨_, ha⟩)
        · exact fun _ => rfl
        · exact hread.halfOpen hhalf a ha
  | succeeded ha =>
      exact ⟨.recordSuccess, fun a ha => h.known a (mem_without ha), by rintro ⟨⟩, by rintro ⟨⟩,
        fun _ => rfl⟩
  | @failed call now a ha =>
      have hcount : (g.breaker.recordFailure now).consecutiveFailures = _ :=
        CircuitBreaker.recordFailure_consecutiveFailures
      rcases g.breaker.recordFailure_cases now with ⟨ho, hs, -⟩ | ⟨ho, hs, -⟩
      · refine ⟨h.breaker.recordFailure, ?_, ?_, ?_, ?_⟩ <;> simp only [if_pos ho, hs]
        · intro a ha
          exact (h.known a (mem_without ha)).trans (Nat.le_succ _)
        · intro _ a ha
          exact Nat.lt_succ_of_le (h.known a (mem_without ha))
        · intro h
          cases h
        · intro h
          cases h
      · refine ⟨h.breaker.recordFailure, ?_, ?_, ?_, ?_⟩ <;> simp only [if_neg ho, hs]
        · exact fun a ha => h.known a (mem_without ha)
        · exact fun hs a ha => h.opened hs a (mem_without ha)
        · exact fun hs a ha => h.halfOpen hs a (mem_without ha)
        · intro hclosed
          rw [hcount, if_neg (by simp [hclosed]), h.counted hclosed]
  | left ha =>
      exact ⟨h.breaker, fun a ha => h.known a (mem_without ha),
        fun hs a ha => h.opened hs a (mem_without ha),
        fun hs a ha => h.halfOpen hs a (mem_without ha), h.counted⟩

/-- Reading the state can only end a cooldown. -/
theorem cooled_documented {now : Time}
    (he : e = .state now ∨ ∃ call, e = .allowRequest call now)
    (h : g.breaker.state ≠ (g.breaker.readState now).state) :
    Documented g e g.breaker.state (g.breaker.readState now).state := by
  rcases g.breaker.readState_cases now with ⟨hs, hcool, hread⟩ | ⟨-, hread⟩
  · rw [hread, hs]
    exact .cooled he hcool
  · rw [hread] at h
    exact absurd rfl h

theorem KeepsToDiagram.of_documented
    (h : g.breaker.state ≠ g'.breaker.state → Documented g e g.breaker.state g'.breaker.state)
    (hstale : ∀ call, e.Records call → g.Stale call →
      ¬ (g.breaker.state ≠ .closed ∧ g'.breaker.state = .closed) ∧ g'.openings = g.openings) :
    KeepsToDiagram g e g' := by
  refine ⟨h, ?_, hstale⟩
  rintro ⟨hs, hs'⟩
  rw [hs, hs'] at h
  cases h (by simp)

/-- An attempt that is not from before the last opening is from after it. -/
theorem Gate.Sound.openings_eq (h : g.Sound) {call : κ} {a : Admission κ}
    (ha : g.admission? call = some a) (hfresh : ¬ g.Stale call) : a.openings = g.openings := by
  refine (h.known a (mem_admitted ha)).antisymm (not_lt.mp ?_)
  exact fun hlt => hfresh ⟨a, ha, hlt⟩

theorem Gate.Sound.recordSuccess_keeps_iff (h : g.Sound) {call : κ} {a : Admission κ}
    (ha : g.admission? call = some a) (hb : g'.breaker.state = .closed)
    (ho : g'.openings = g.openings) :
    KeepsToDiagram g (.recordSuccess call) g' ↔ g.Timely (.recordSuccess call) := by
  constructor
  · intro hkeeps hstale
    by_contra hopen
    exact (hkeeps.stale call rfl hstale).1 ⟨hopen, hb⟩
  · intro htimely
    refine .of_documented ?_ ?_
    · rw [hb]
      cases hs : g.breaker.state with
      | closed => exact fun h => absurd rfl h
      | opened =>
          have hclosed := htimely ⟨a, ha, h.opened hs a (mem_admitted ha)⟩
          cases hs.symm.trans hclosed
      | halfOpen =>
          have hfresh : ¬ g.Stale call := fun hstale =>
            absurd (hs.symm.trans (htimely hstale)) (by simp)
          have hthis := h.openings_eq ha hfresh
          exact fun _ => .trialSucceeded ha (h.halfOpen hs a (mem_admitted ha) hthis) hthis
    · rintro c rfl hstale
      exact ⟨fun hcloses => hcloses.1 (htimely hstale), ho⟩

theorem Gate.Sound.recordFailure_keeps_iff (h : g.Sound) {call : κ} {now : Time}
    {a : Admission κ} (ha : g.admission? call = some a)
    (hb : g'.breaker = g.breaker.recordFailure now)
    (ho : g'.openings = if g.breaker.opens then g.openings + 1 else g.openings) :
    KeepsToDiagram g (.recordFailure call now) g' ↔ g.Timely (.recordFailure call now) := by
  constructor
  · intro hkeeps hstale
    have hsame := (hkeeps.stale call rfl hstale).2
    have hno : ¬ g.breaker.opens := by
      intro hopens
      rw [ho, if_pos hopens] at hsame
      exact absurd hsame (Nat.succ_ne_self _)
    obtain ⟨hhalf, hbelow⟩ := not_or.mp hno
    refine ⟨?_, not_le.mp hbelow⟩
    by_contra hclosed
    have := h.breaker.counted hclosed
    omega
  · intro htimely
    refine .of_documented ?_ ?_
    · rw [hb]
      intro hchange
      rcases g.breaker.recordFailure_cases now with ⟨hopens, hs', -⟩ | ⟨-, hs', -⟩
      · rw [hs'] at hchange ⊢
        cases hs : g.breaker.state with
        | closed =>
            have hreached := hopens.resolve_left (by simp [hs])
            rw [h.counted hs] at hreached
            exact .failed hreached
        | opened => exact absurd hs hchange
        | halfOpen =>
            have hfresh : ¬ g.Stale call := fun hstale =>
              absurd (hs.symm.trans (htimely hstale).1) (by simp)
            have hthis := h.openings_eq ha hfresh
            exact .trialFailed ha (h.halfOpen hs a (mem_admitted ha) hthis) hthis
      · exact absurd hs'.symm hchange
    · rintro c rfl hstale
      obtain ⟨hclosed, hbelow⟩ := htimely hstale
      refine ⟨fun hcloses => hcloses.1 hclosed, ?_⟩
      rw [ho, if_neg]
      rintro (hhalf | hreached)
      · cases hhalf.symm.trans hclosed
      · exact absurd hreached (not_le.mpr hbelow)

/-- A step keeps to the four changes exactly when it is no record of an attempt
from before the last opening that closes the breaker or opens it. -/
theorem Gate.Sound.keepsToDiagram_iff (h : g.Sound) (hm : GateMove g e g') :
    KeepsToDiagram g e g' ↔ g.Timely e := by
  cases hm with
  | @read now =>
      exact ⟨fun _ => trivial,
        fun _ => .of_documented (cooled_documented (.inl rfl)) (by rintro _ ⟨⟩)⟩
  | @refused call now =>
      exact ⟨fun _ => trivial,
        fun _ => .of_documented (cooled_documented (.inr ⟨call, rfl⟩)) (by rintro _ ⟨⟩)⟩
  | passed =>
      exact ⟨fun _ => trivial, fun _ => .of_documented (fun h => absurd rfl h) (by simp)⟩
  | @tried call now =>
      exact ⟨fun _ => trivial,
        fun _ => .of_documented (cooled_documented (.inr ⟨call, rfl⟩)) (by rintro _ ⟨⟩)⟩
  | succeeded ha => exact h.recordSuccess_keeps_iff ha rfl rfl
  | failed ha => exact h.recordFailure_keeps_iff ha rfl rfl
  | left ha =>
      exact ⟨fun _ => trivial, fun _ => .of_documented (fun h => absurd rfl h) (by simp)⟩

/-- A new breaker, nothing on its way. -/
def Gate.new (κ : Type) (failureThreshold : Int) (cooldownSeconds : Time) : Gate κ where
  breaker := CircuitBreaker.new failureThreshold cooldownSeconds

omit [DecidableEq κ] in
theorem Gate.new_sound {threshold : Int} {cooldown : Time} :
    (Gate.new κ threshold cooldown).Sound where
  breaker := CircuitBreaker.new_sound
  known := by rintro _ ⟨⟩
  opened := by rintro ⟨⟩
  halfOpen := by rintro ⟨⟩
  counted _ := rfl

/-- The steps of a run all keep to the diagram exactly when none of them is the
record of an attempt admitted before the last opening, made outside CLOSED or as
the failure that reaches the threshold.  The clock may read anything. -/
theorem changes_documented_iff {threshold : Int} {cooldown : Time} {es : List (GateEvent κ)}
    (h : Runs.run gateStep (Gate.new κ threshold cooldown) es = some g) :
    Runs.AllSteps gateStep (fun g e => ∀ g', gateStep g e = some g' → KeepsToDiagram g e g')
        (Gate.new κ threshold cooldown) es ↔
      Runs.AllSteps gateStep Gate.Timely (Gate.new κ threshold cooldown) es := by
  refine Runs.allSteps_congr (I := Gate.Sound) ?_ ?_ Gate.new_sound h
  · intro g e g' hg _ hstep
    exact hg.step (gateStep_move hstep)
  · intro g e g' hg hstep
    constructor
    · intro hkeeps
      exact (hg.keepsToDiagram_iff (gateStep_move hstep)).mp (hkeeps g' hstep)
    · intro htimely g₁ h₁
      exact (hg.keepsToDiagram_iff (gateStep_move h₁)).mpr htimely

end

/-- Six calls pass at once and five of them fail at instant 1. -/
def sixCalls : List (GateEvent Nat) :=
  [.allowRequest 0 0, .allowRequest 1 0, .allowRequest 2 0, .allowRequest 3 0, .allowRequest 4 0,
    .allowRequest 5 0, .recordFailure 1 1, .recordFailure 2 1, .recordFailure 3 1,
    .recordFailure 4 1, .recordFailure 5 1]

/-- After its cooldown the breaker lets one trial pass, which succeeds. -/
def recovery : List (GateEvent Nat) := [.allowRequest 6 31, .recordSuccess 6]

theorem changes_documented_iff_recovery :
    Runs.AllSteps gateStep (fun g e => ∀ g', gateStep g e = some g' → KeepsToDiagram g e g')
      (Gate.new Nat 5 30) (sixCalls ++ recovery) := by
  have hruns : (Runs.run gateStep (Gate.new Nat 5 30) (sixCalls ++ recovery)).isSome = true := by
    decide +kernel
  obtain ⟨g, hg⟩ := Option.isSome_iff_exists.mp hruns
  exact (changes_documented_iff hg).mpr (by decide +kernel)

/-- The success of a call admitted before the breaker opened takes it from OPEN
straight to CLOSED. -/
theorem late_success_closes :
    ∃ g g', Runs.run gateStep (Gate.new Nat 5 30) sixCalls = some g ∧
      gateStep g (.recordSuccess 0) = some g' ∧ g.breaker.state = .opened ∧
      g'.breaker.state = .closed ∧ ¬ KeepsToDiagram g (.recordSuccess 0) g' := by
  have hany : (Runs.run gateStep (Gate.new Nat 5 30) sixCalls).any (fun g =>
      decide (g.breaker.state = .opened) && (gateStep g (.recordSuccess 0)).any fun g' =>
        decide (g'.breaker.state = .closed)) = true := by
    decide +kernel
  obtain ⟨g, hg, hall⟩ := (Option.any_eq_true _ _).mp hany
  obtain ⟨hopened, hstep⟩ := Bool.and_eq_true_iff.mp hall
  obtain ⟨g', hg', hclosed⟩ := (Option.any_eq_true _ _).mp hstep
  have hs := of_decide_eq_true hopened
  have hs' := of_decide_eq_true hclosed
  exact ⟨g, g', hg, hg', hs, hs', fun hkeeps => hkeeps.notStraight ⟨hs, hs'⟩⟩

end LoyaltyTransfer
