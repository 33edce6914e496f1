/-
# `LoyaltyTransfer.BreakerCalls` — the calls that share a breaker

`credit_points` and `get_credit_status` of one partner run concurrently over its
circuit breaker.  They are coroutines on one event loop: a call asks at the gate
and looks at its deadline without giving way, makes its attempt, and records the
end of it.  An attempt can also end in a cancellation or in an exception that is
no timeout; then nothing is recorded, nor is it when the deadline had passed at
the gate.

**Proved here.**  The calls pass the gate of `LoyaltyTransfer.Breaker` as its
events say (`calls_follow_gate`).  The trial flag is down whenever nothing is on
its way, so that the next call after the cooldown passes, exactly as long as no
call leaves without a record while the flag is up and no other attempt is on its
way (`recovers_iff`).  One that does leaves a breaker that refuses every request
from then on (`refuses_forever`, `cancelled_trial_refuses`).
-/
import LoyaltyTransfer.Breaker

namespace LoyaltyTransfer

inductive PartnerCall where
  | credit (c : Call PartnerCreditResult)
  | status (c : Call PartnerStatusResult)

/-- The call has passed the gate and its attempt is not over. -/
def Call.isSending {ρ : Type} (c : Call ρ) : Bool :=
  match c.pc with
  | .sending => true
  | _ => false

def PartnerCall.inFlight : PartnerCall → Bool
  | .credit c => c.isSending
  | .status c => c.isSending

/-- One partner's breaker and the calls made so far. -/
structure SharedBreaker where
  breaker : CircuitBreaker
  calls : List PartnerCall := []

/-- `state` is a reading by `CircuitBreakerRegistry.states`. -/
inductive CallsEvent where
  | state (now : Time)
  | startCredit (now : Time)
  | startStatus (now : Time)
  | credit (i : Nat) (e : CallEvent PartnerCreditResult)
  | status (i : Nat) (e : CallEvent PartnerStatusResult)

def callsStep (adapter : ResilientPartnerAdapter) (s : SharedBreaker) :
    CallsEvent → Option SharedBreaker
  | .state now => some { s with breaker := s.breaker.readState now }
  | .startCredit now => some { s with calls := s.calls ++ [.credit (adapter.start _ now)] }
  | .startStatus now => some { s with calls := s.calls ++ [.status (adapter.start _ now)] }
  | .credit i e =>
      match s.calls[i]? with
      | some (.credit c) =>
          if e.isOwn then
            (callStep creditOperation adapter (s.breaker, c) e).map fun x =>
              ⟨x.1, s.calls.set i (.credit x.2)⟩
          else none
      | _ => none
  | .status i e =>
      match s.calls[i]? with
      | some (.status c) =>
          if e.isOwn then
            (callStep statusOperation adapter (s.breaker, c) e).map fun x =>
              ⟨x.1, s.calls.set i (.status x.2)⟩
          else none
      | _ => none

def SharedBreaker.inFlight (s : SharedBreaker) (i : Nat) : Bool :=
  (s.calls[i]?).any PartnerCall.inFlight

/-- Nothing is on its way. -/
def SharedBreaker.Quiet (s : SharedBreaker) : Prop := ∀ i, s.inFlight i = false

def SharedBreaker.OtherInFlight (s : SharedBreaker) (i : Nat) : Prop :=
  ∃ j, j ≠ i ∧ s.inFlight j = true

/-- What the breaker owes its callers when nothing is on its way. -/
structure SharedBreaker.Recovers (s : SharedBreaker) : Prop where
  flag : s.Quiet → s.breaker.trialInFlight = false
  admits : s.Quiet → ∀ now,
    (s.breaker.state = .opened → s.breaker.cooldownSeconds ≤ now - s.breaker.openedAt) →
    (s.breaker.allowRequest now).1 = true

/-- Call `i` does not leave without a record while the flag is up and no other
attempt is on its way: neither at its deadline, just let pass as the trial, nor
by an exception in its attempt. -/
def SharedBreaker.Accounts {ρ : Type} (s : SharedBreaker) (i : Nat) : CallEvent ρ → Prop
  | .late gateAt _ => (s.breaker.readState gateAt).state = .halfOpen → s.OtherInFlight i
  | .raise => s.inFlight i = true → s.breaker.trialInFlight = true → s.OtherInFlight i
  | _ => True

def SharedBreaker.AccountsFor (s : SharedBreaker) : CallsEvent → Prop
  | .credit i e => s.Accounts i e
  | .status i e => s.Accounts i e
  | _ => True

instance (s : SharedBreaker) (i : Nat) : Decidable (s.OtherInFlight i) :=
  decidable_of_iff (∃ j ∈ List.range s.calls.length, j ≠ i ∧ s.inFlight j = true) (by
    constructor
    · rintro ⟨j, -, hj⟩
      exact ⟨j, hj⟩
    · rintro ⟨j, hji, hj⟩
      refine ⟨j, List.mem_range.mpr ?_, hji, hj⟩
      obtain ⟨p, hp, -⟩ := (Option.any_eq_true _ _).mp hj
      exact (List.getElem?_eq_some_iff.mp hp).1)

instance {ρ : Type} (s : SharedBreaker) (i : Nat) : DecidablePred (s.Accounts (ρ := ρ) i)
  | .late gateAt _ => inferInstanceAs (Decidable ((s.breaker.readState gateAt).state = _ → _))
  | .raise => inferInstanceAs (Decidable (s.inFlight i = true → _ → _))
  | .refused _ | .send _ _ | .answer _ _ | .cutOff _ | .others _ => isTrue trivial

instance (s : SharedBreaker) : DecidablePred s.AccountsFor
  | .credit i e => inferInstanceAs (Decidable (s.Accounts i e))
  | .status i e => inferInstanceAs (Decidable (s.Accounts i e))
  | .state _ | .startCredit _ | .startStatus _ => isTrue trivial

/-! ## The flag at the gate -/

section

variable {b b' : CircuitBreaker} {now : Time}

theorem CircuitBreaker.flag_of_refused (h : b.allowRequest now = (false, b')) :
    b'.trialInFlight = b.trialInFlight := by
  rcases b.allowRequest_cases now with ⟨-, e⟩ | ⟨-, -, e⟩ | ⟨-, -, e⟩
  · cases e.symm.trans h
  · cases e.symm.trans h
  · cases e.symm.trans h
    rcases b.readState_cases now with ⟨-, -, e⟩ | ⟨-, e⟩ <;> rw [e]

/-- A request passes a closed breaker, which stays as it is, or raises the flag
of a half-open one. -/
theorem CircuitBreaker.flag_of_passed (h : b.allowRequest now = (true, b')) :
    (b.state = .closed ∧ b' = b) ∨
      ((b.readState now).state = .halfOpen ∧ b'.trialInFlight = true) := by
  rcases b.allowRequest_cases now with ⟨hs, e⟩ | ⟨hs, -, e⟩ | ⟨-, -, e⟩
  · cases e.symm.trans h
    exact .inl ⟨hs, rfl⟩
  · cases e.symm.trans h
    exact .inr ⟨hs, rfl⟩
  · cases e.symm.trans h

theorem CircuitBreaker.flag_recorded {healthy : Bool} :
    (b.recordAttempt healthy now).trialInFlight = false := by
  cases healthy with
  | true => rfl
  | false => exact CircuitBreaker.recordFailure_trialInFlight

theorem CircuitBreaker.Sound.recordAttempt {healthy : Bool} (h : b.Sound) :
    (b.recordAttempt healthy now).Sound := by
  cases healthy with
  | true => exact .recordSuccess
  | false => exact h.recordFailure

/-- With the flag down, a request passes once the cooldown is over. -/
theorem CircuitBreaker.allowRequest_flag_down (hflag : b.trialInFlight = false)
    (hcool : b.state = .opened → b.cooldownSeconds ≤ now - b.openedAt) :
    (b.allowRequest now).1 = true := by
  rcases b.allowRequest_cases now with ⟨-, e⟩ | ⟨-, -, e⟩ | ⟨-, hwhy, e⟩
  · rw [e]
  · rw [e]
  · rcases hwhy with hs | hup
    · rcases b.readState_cases now with ⟨-, -, e⟩ | ⟨hno, e⟩
      · rw [e] at hs
        cases hs
      · rw [e] at hs
        exact absurd ⟨hs, hcool hs⟩ hno
    · cases hflag.symm.trans hup

end

/-! ## One event -/

/-- The event of a call of the operation `op`, that `wrap` lists among the
calls. -/
structure CallMoved {ρ : Type} (op : Operation ρ) (wrap : Call ρ → PartnerCall)
    (adapter : ResilientPartnerAdapter) (s : SharedBreaker) (i : Nat) (e : CallEvent ρ)
    (s' : SharedBreaker) (c c' : Call ρ) : Prop where
  listed : s.calls[i]? = some (wrap c)
  own : e.isOwn = true
  move : CallMove op adapter s.breaker c e s'.breaker c'
  calls : s'.calls = s.calls.set i (wrap c')

section

variable {adapter : ResilientPartnerAdapter} {s s' : SharedBreaker}

theorem callsStep_credit {i : Nat} {e : CallEvent PartnerCreditResult}
    (h : callsStep adapter s (.credit i e) = some s') :
    ∃ c c', CallMoved creditOperation .credit adapter s i e s' c c' := by
  simp only [callsStep] at h
  split at h
  · rename_i c hc
    split at h
    · rename_i hown
      obtain ⟨⟨b', c'⟩, hstep, rfl⟩ := Option.map_eq_some_iff.mp h
      exact ⟨c, c', hc, hown, callStep_move hstep, rfl⟩
    · cases h
  · cases h

theorem callsStep_status {i : Nat} {e : CallEvent PartnerStatusResult}
    (h : callsStep adapter s (.status i e) = some s') :
    ∃ c c', CallMoved statusOperation .status adapter s i e s' c c' := by
  simp only [callsStep] at h
  split at h
  · rename_i c hc
    split at h
    · rename_i hown
      obtain ⟨⟨b', c'⟩, hstep, rfl⟩ := Option.map_eq_some_iff.mp h
      exact ⟨c, c', hc, hown, callStep_move hstep, rfl⟩
    · cases h
  · cases h

theorem SharedBreaker.quiet_iff_all :
    s.Quiet ↔ s.calls.all (fun p => !p.inFlight) = true := by
  rw [List.all_eq_true]
  constructor
  · intro hquiet p hp
    obtain ⟨i, hi⟩ := List.getElem?_of_mem hp
    have := hquiet i
    simp only [inFlight, hi, Option.any_some] at this
    simp [this]
  · intro hall i
    cases hi : s.calls[i]? with
    | none => simp [inFlight, hi]
    | some p => simpa [inFlight, hi] using hall p (List.mem_of_getElem? hi)

theorem Call.isSending_iff {ρ : Type} {c : Call ρ} : c.isSending = true ↔ c.pc = .sending := by
  cases h : c.pc <;> simp [Call.isSending, h]

/-- A call that starts is not on its way yet. -/
theorem inFlight_append {p : PartnerCall} (hp : p.inFlight = false) (b : CircuitBreaker) (j : Nat) :
    (SharedBreaker.mk b (s.calls ++ [p])).inFlight j = s.inFlight j := by
  simp only [SharedBreaker.inFlight]
  rcases lt_trichotomy j s.calls.length with hj | rfl | hj
  · rw [List.getElem?_append_left hj]
  · simp [hp]
  · rw [List.getElem?_eq_none (by simp; omega), List.getElem?_eq_none hj.le]

section

variable {ρ : Type} {op : Operation ρ} {wrap : Call ρ → PartnerCall} {i : Nat} {e : CallEvent ρ}
  {c c' : Call ρ}

theorem CallMoved.inFlight_before (h : CallMoved op wrap adapter s i e s' c c')
    (hwrap : ∀ c, (wrap c).inFlight = c.isSending) : s.inFlight i = c.isSending := by
  simp [SharedBreaker.inFlight, h.listed, hwrap]

theorem CallMoved.inFlight_after (h : CallMoved op wrap adapter s i e s' c c')
    (hwrap : ∀ c, (wrap c).inFlight = c.isSending) : s'.inFlight i = c'.isSending := by
  have hlen : i < s.calls.length := (List.getElem?_eq_some_iff.mp h.listed).1
  simp [SharedBreaker.inFlight, h.calls, hlen, hwrap]

theorem CallMoved.inFlight_other (h : CallMoved op wrap adapter s i e s' c c') {j : Nat}
    (hj : j ≠ i) : s'.inFlight j = s.inFlight j := by
  simp only [SharedBreaker.inFlight, h.calls, List.getElem?_set_ne (Ne.symm hj)]

/-- With call `i` not on its way, nothing is unless another call is. -/
theorem CallMoved.quiet_iff (h : CallMoved op wrap adapter s i e s' c c')
    (hwrap : ∀ c, (wrap c).inFlight = c.isSending) (hc' : c'.isSending = false) :
    s'.Quiet ↔ ¬ s.OtherInFlight i := by
  constructor
  · rintro hquiet ⟨j, hj, hflight⟩
    rw [← h.inFlight_other hj, hquiet j] at hflight
    cases hflight
  · intro hno j
    by_cases hj : j = i
    · subst hj
      rw [h.inFlight_after hwrap, hc']
    · rw [h.inFlight_other hj]
      by_contra hflight
      exact hno ⟨j, hj, Bool.eq_true_of_not_eq_false hflight⟩

/-- What one event makes of a breaker whose flag was down unless something was on
its way. -/
theorem CallMoved.flag_iff (h : CallMoved op wrap adapter s i e s' c c')
    (hwrap : ∀ c, (wrap c).inFlight = c.isSending)
    (hflag : s.Quiet → s.breaker.trialInFlight = false) :
    (s'.Quiet → s'.breaker.trialInFlight = false) ↔ s.Accounts i e := by
  obtain ⟨b', calls'⟩ := s'
  obtain ⟨listed, hown, hmove, hcalls⟩ := id h
  have hflight := h.inFlight_before hwrap
  -- an event that moves neither the flag nor what is on its way
  have hsame : c.isSending = false → c'.isSending = false →
      b'.trialInFlight = s.breaker.trialInFlight → SharedBreaker.Quiet ⟨b', calls'⟩ →
      b'.trialInFlight = false := by
    intro hc hc' hb hquiet
    rw [hb]
    refine hflag fun j => ?_
    by_cases hj : j = i
    · rw [hj, hflight, hc]
    · rw [← h.inFlight_other hj]
      exact hquiet j
  cases hmove with
  | refused hpc hgate =>
      exact ⟨fun _ => trivial,
        fun _ => hsame (by simp [Call.isSending, hpc]) rfl (CircuitBreaker.flag_of_refused hgate)⟩
  | @late gateAt checkedAt _ hpc hgate hlate =>
      have hquiet := h.quiet_iff hwrap rfl
      rcases CircuitBreaker.flag_of_passed hgate with ⟨hclosed, rfl⟩ | ⟨hhalf, hup⟩
      · refine ⟨fun _ hhalf => ?_, fun _ => hsame (by simp [Call.isSending, hpc]) rfl rfl⟩
        rcases s.breaker.readState_cases gateAt with ⟨hs, -, -⟩ | ⟨-, e⟩
        · cases hclosed.symm.trans hs
        · rw [e] at hhalf
          cases hclosed.symm.trans hhalf
      · rw [hquiet, hup]
        exact ⟨fun h _ => not_not.mp fun hno => absurd (h hno) (by simp),
          fun h hno => absurd (h hhalf) hno⟩
  | send hpc hgate htime =>
      refine ⟨fun _ => trivial, fun _ hquiet => ?_⟩
      have := hquiet i
      rw [h.inFlight_after hwrap] at this
      cases this
  | ended hpc he hstop =>
      refine ⟨fun _ => ?_, fun _ _ => CircuitBreaker.flag_recorded⟩
      cases he <;> trivial
  | retried hpc he | overflowed hpc he =>
      refine ⟨fun _ => ?_, fun _ _ => CircuitBreaker.flag_recorded⟩
      cases he <;> trivial
  | raised hpc =>
      have hquiet := h.quiet_iff hwrap rfl
      rcases hpc with hpc | hpc
      · have hc : c.isSending = false := by simp [Call.isSending, hpc]
        refine ⟨fun _ hi => ?_, fun _ => hsame hc rfl rfl⟩
        rw [hflight, hc] at hi
        cases hi
      · have hi : s.inFlight i = true := hflight.trans (Call.isSending_iff.mpr hpc)
        rw [hquiet]
        constructor
        · intro h _ hup
          by_contra hno
          cases (h hno).symm.trans hup
        · intro h hno
          by_contra hup
          exact hno (h hi (Bool.eq_true_of_not_eq_false hup))
  | others => cases hown

theorem CallMoved.sound (h : CallMoved op wrap adapter s i e s' c c') (hs : s.breaker.Sound) :
    s'.breaker.Sound := by
  obtain ⟨b', calls'⟩ := s'
  obtain ⟨listed, hown, hmove, hcalls⟩ := h
  have hgate : ∀ {now answer}, s.breaker.allowRequest now = (answer, b') → b'.Sound := by
    intro now answer hgate
    have hpassed : (s.breaker.allowRequest now).2.Sound := hs.allowRequest
    rwa [hgate] at hpassed
  cases hmove with
  | refused _ h => exact hgate h
  | late _ h => exact hgate h
  | send _ h => exact hgate h
  | ended => exact hs.recordAttempt
  | retried => exact hs.recordAttempt
  | overflowed => exact hs.recordAttempt
  | raised => exact hs
  | others => cases hown

/-- Nothing on its way, and yet the flag is up. -/
structure SharedBreaker.Stuck (s : SharedBreaker) : Prop where
  quiet : s.Quiet
  halfOpen : s.breaker.state = .halfOpen
  flag : s.breaker.trialInFlight = true

theorem SharedBreaker.Stuck.refuses (h : s.Stuck) (now : Time) :
    s.breaker.allowRequest now = (false, s.breaker) := by
  rcases s.breaker.allowRequest_cases now with ⟨hs, -⟩ | ⟨-, hdown, -⟩ | ⟨-, -, e⟩
  · cases hs.symm.trans h.halfOpen
  · cases hdown.symm.trans h.flag
  · rcases s.breaker.readState_cases now with ⟨hs, -, -⟩ | ⟨-, hread⟩
    · cases hs.symm.trans h.halfOpen
    · rwa [hread] at e

theorem CallMoved.stuck (h : CallMoved op wrap adapter s i e s' c c')
    (hwrap : ∀ c, (wrap c).inFlight = c.isSending) (hs : s.Stuck) : s'.Stuck := by
  obtain ⟨b', calls'⟩ := s'
  obtain ⟨listed, hown, hmove, hcalls⟩ := id h
  have hidle : c.pc ≠ .sending := by
    intro hpc
    have := hs.quiet i
    rw [h.inFlight_before hwrap, Call.isSending_iff.mpr hpc] at this
    cases this
  have hstays : b' = s.breaker → c'.isSending = false → SharedBreaker.Stuck ⟨b', calls'⟩ := by
    rintro rfl hc'
    refine ⟨(h.quiet_iff hwrap hc').mpr ?_, hs.halfOpen, hs.flag⟩
    rintro ⟨j, -, hj⟩
    rw [hs.quiet j] at hj
    cases hj
  cases hmove with
  | @refused gateAt _ hpc hgate =>
      cases (hs.refuses gateAt).symm.trans hgate
      exact hstays rfl rfl
  | @late gateAt checkedAt _ hpc hgate => cases (hs.refuses gateAt).symm.trans hgate
  | @send gateAt checkedAt _ hpc hgate => cases (hs.refuses gateAt).symm.trans hgate
  | ended hpc => exact absurd hpc hidle
  | retried hpc => exact absurd hpc hidle
  | overflowed hpc => exact absurd hpc hidle
  | raised => exact hstays rfl rfl
  | others => cases hown

end

/-! ## Runs -/

variable {e : CallsEvent} {es : List CallsEvent}

theorem credit_inFlight (c : Call PartnerCreditResult) :
    (PartnerCall.credit c).inFlight = c.isSending := rfl

theorem status_inFlight (c : Call PartnerStatusResult) :
    (PartnerCall.status c).inFlight = c.isSending := rfl

theorem callsStep_sound (h : callsStep adapter s e = some s') (hs : s.breaker.Sound) :
    s'.breaker.Sound := by
  cases e with
  | state now =>
      cases h
      exact hs.readState
  | startCredit now =>
      cases h
      exact hs
  | startStatus now =>
      cases h
      exact hs
  | credit i e =>
      obtain ⟨c, c', hm⟩ := callsStep_credit h
      exact hm.sound hs
  | status i e =>
      obtain ⟨c, c', hm⟩ := callsStep_status h
      exact hm.sound hs

theorem quiet_append {p : PartnerCall} (hp : p.inFlight = false) {b : CircuitBreaker} :
    (SharedBreaker.mk b (s.calls ++ [p])).Quiet ↔ s.Quiet :=
  forall_congr' fun j => by rw [inFlight_append hp]

theorem callsStep_flag_iff (h : callsStep adapter s e = some s')
    (hflag : s.Quiet → s.breaker.trialInFlight = false) :
    (s'.Quiet → s'.breaker.trialInFlight = false) ↔ s.AccountsFor e := by
  cases e with
  | state now =>
      cases h
      refine ⟨fun _ => trivial, fun _ hquiet => ?_⟩
      rcases s.breaker.readState_cases now with ⟨-, -, e⟩ | ⟨-, e⟩ <;> simp only [e] <;>
        exact hflag hquiet
  | startCredit now =>
      cases h
      exact ⟨fun _ => trivial, fun _ hquiet => hflag ((quiet_append rfl).mp hquiet)⟩
  | startStatus now =>
      cases h
      exact ⟨fun _ => trivial, fun _ hquiet => hflag ((quiet_append rfl).mp hquiet)⟩
  | credit i e =>
      obtain ⟨c, c', hm⟩ := callsStep_credit h
      exact hm.flag_iff credit_inFlight hflag
  | status i e =>
      obtain ⟨c, c', hm⟩ := callsStep_status h
      exact hm.flag_iff status_inFlight hflag

theorem callsStep_stuck (h : callsStep adapter s e = some s') (hs : s.Stuck) : s'.Stuck := by
  cases e with
  | state now =>
      cases h
      have hread : s.breaker.readState now = s.breaker := by
        rcases s.breaker.readState_cases now with ⟨hopened, -, -⟩ | ⟨-, e⟩
        · cases hopened.symm.trans hs.halfOpen
        · exact e
      rw [hread]
      exact hs
  | startCredit now =>
      cases h
      exact ⟨(quiet_append rfl).mpr hs.quiet, hs.halfOpen, hs.flag⟩
  | startStatus now =>
      cases h
      exact ⟨(quiet_append rfl).mpr hs.quiet, hs.halfOpen, hs.flag⟩
  | credit i e =>
      obtain ⟨c, c', hm⟩ := callsStep_credit h
      exact hm.stuck credit_inFlight hs
  | status i e =>
      obtain ⟨c, c', hm⟩ := callsStep_status h
      exact hm.stuck status_inFlight hs

theorem SharedBreaker.Stuck.run (hs : s.Stuck)
    (h : Runs.run (callsStep adapter) s es = some s') : s'.Stuck :=
  Runs.run_invariant (fun _ _ _ hs hstep => callsStep_stuck hstep hs) hs h

theorem SharedBreaker.Recovers.of_flag (h : s.Quiet → s.breaker.trialInFlight = false) :
    s.Recovers where
  flag := h
  admits hquiet _ hcool := CircuitBreaker.allowRequest_flag_down (h hquiet) hcool

/-- A new breaker, before the first call. -/
def SharedBreaker.new (failureThreshold : Int) (cooldownSeconds : Time) : SharedBreaker where
  breaker := CircuitBreaker.new failureThreshold cooldownSeconds

/-- Along a run the breaker recovers whenever nothing is on its way, exactly when
no call leaves without a record while the flag is up and no other attempt is on
its way. -/
theorem recovers_iff {threshold : Int} {cooldown : Time}
    (h : Runs.run (callsStep adapter) (.new threshold cooldown) es = some s) :
    Runs.AllSteps (callsStep adapter) (fun s e => ∀ s', callsStep adapter s e = some s' →
        s'.Recovers) (.new threshold cooldown) es ↔
      Runs.AllSteps (callsStep adapter) SharedBreaker.AccountsFor (.new threshold cooldown) es := by
  refine Runs.allSteps_congr (I := SharedBreaker.Recovers) ?_ ?_ (.of_flag fun _ => rfl) h
  · intro s e s' _ hnext hstep
    exact hnext s' hstep
  · intro s e s' hs hstep
    constructor
    · intro hnext
      exact (callsStep_flag_iff hstep hs.flag).mp (hnext s' hstep).flag
    · intro haccounts s₁ h₁
      exact .of_flag ((callsStep_flag_iff h₁ hs.flag).mpr haccounts)

/-- After a call has left so, the breaker refuses every request at every later
moment, whatever calls are made. -/
theorem refuses_forever (hsound : s.breaker.Sound) (hs : s.Recovers)
    (hstep : callsStep adapter s e = some s') (hleaves : ¬ s.AccountsFor e) {s'' : SharedBreaker}
    (h : Runs.run (callsStep adapter) s' es = some s'') (now : Time) :
    (s''.breaker.allowRequest now).1 = false := by
  have hup : ¬ (s'.Quiet → s'.breaker.trialInFlight = false) := fun hflag =>
    hleaves ((callsStep_flag_iff hstep hs.flag).mp hflag)
  obtain ⟨hquiet, hup⟩ := Classical.not_imp.mp hup
  have hflag := Bool.eq_true_of_not_eq_false hup
  have hstuck : s'.Stuck := ⟨hquiet, (callsStep_sound hstep hsound).trial hflag, hflag⟩
  rw [(hstuck.run h).refuses now]

end

/-! ## At the gate -/

/-- The end of an attempt, as the gate sees it. -/
def recordAt (i : Nat) (healthy : Bool) (now : Time) : GateEvent Nat :=
  if healthy then .recordSuccess i else .recordFailure i now

/-- What an event of call `i` is at the gate. -/
def CallEvent.atGate {ρ : Type} (op : Operation ρ) (i : Nat) (sending : Bool) :
    CallEvent ρ → List (GateEvent Nat)
  | .refused gateAt => [.allowRequest i gateAt]
  | .late gateAt _ => [.allowRequest i gateAt, .leave i]
  | .send gateAt _ => [.allowRequest i gateAt]
  | .answer r m => [recordAt i (op.healthy r) m.recordedAt]
  | .cutOff m => [recordAt i (op.healthy op.cutOff) m.recordedAt]
  | .raise => if sending then [.leave i] else []
  | .others _ => []

def CallsEvent.atGate (s : SharedBreaker) : CallsEvent → List (GateEvent Nat)
  | .state now => [.state now]
  | .startCredit _ | .startStatus _ => []
  | .credit i e => e.atGate creditOperation i (s.inFlight i)
  | .status i e => e.atGate statusOperation i (s.inFlight i)

/-- What a run of the calls is at the gate. -/
def gateEvents (adapter : ResilientPartnerAdapter) :
    SharedBreaker → List CallsEvent → List (GateEvent Nat)
  | _, [] => []
  | s, e :: es => e.atGate s ++ ((callsStep adapter s e).elim [] fun s' => gateEvents adapter s' es)

/-- The gate has the breaker of the calls, and on their way is what passed it. -/
structure Follows (s : SharedBreaker) (g : Gate Nat) : Prop where
  breaker : g.breaker = s.breaker
  admitted : ∀ i, (g.admission? i).isSome = s.inFlight i

section

variable {adapter : ResilientPartnerAdapter} {s s' : SharedBreaker} {g : Gate Nat}

theorem admission?_cons (g : Gate Nat) (a : Admission Nat) (b : CircuitBreaker) (j : Nat) :
    Gate.admission? { g with breaker := b, admitted := a :: g.admitted } j =
      if a.call = j then some a else g.admission? j := by
  simp only [Gate.admission?, List.find?_cons]
  split <;> simp_all

theorem admission?_without (g g' : Gate Nat) (i j : Nat) (h : g'.admitted = g.without i) :
    (g'.admission? j).isSome = if j = i then false else (g.admission? j).isSome := by
  simp only [Gate.admission?, h, Gate.without, List.find?_filter]
  by_cases hji : j = i
  · subst hji
    simp
  · rw [if_neg hji]
    congr 2
    funext a
    by_cases ha : a.call = j <;> simp [ha, hji]

theorem gateStep_refused {i : Nat} {now : Time} {b : CircuitBreaker}
    (hnew : g.admission? i = none) (hgate : g.breaker.allowRequest now = (false, b)) :
    gateStep g (.allowRequest i now) = some { g with breaker := b } := by
  simp [gateStep, hnew, hgate]

theorem gateStep_passed {i : Nat} {now : Time} {b : CircuitBreaker}
    (hnew : g.admission? i = none) (hgate : g.breaker.allowRequest now = (true, b)) :
    ∃ a : Admission Nat, a.call = i ∧ gateStep g (.allowRequest i now) =
      some { g with breaker := b, admitted := a :: g.admitted } :=
  ⟨⟨i, g.openings, decide (b.state = .halfOpen)⟩, rfl, by simp [gateStep, hnew, hgate]⟩

theorem gateStep_leave {i : Nat} (h : (g.admission? i).isSome = true) :
    gateStep g (.leave i) = some { g with admitted := g.without i } := by
  obtain ⟨a, ha⟩ := Option.isSome_iff_exists.mp h
  simp [gateStep, ha]

theorem gateStep_record {i : Nat} (healthy : Bool) (now : Time)
    (h : (g.admission? i).isSome = true) :
    ∃ g', gateStep g (recordAt i healthy now) = some g' ∧
      g'.breaker = g.breaker.recordAttempt healthy now ∧ g'.admitted = g.without i := by
  obtain ⟨a, ha⟩ := Option.isSome_iff_exists.mp h
  cases healthy with
  | true =>
      have hstep : gateStep g (.recordSuccess i) = some { g with
          breaker := g.breaker.recordSuccess
          failures := 0
          admitted := g.without i } := by simp [gateStep, ha]
      exact ⟨_, hstep, rfl, rfl⟩
  | false =>
      have hstep : gateStep g (.recordFailure i now) = some {
          breaker := g.breaker.recordFailure now
          openings := if g.breaker.opens then g.openings + 1 else g.openings
          failures := g.failures + 1
          admitted := g.without i } := by simp [gateStep, ha]
      exact ⟨_, hstep, rfl, rfl⟩

section

variable {ρ : Type} {op : Operation ρ} {wrap : Call ρ → PartnerCall} {i : Nat} {e : CallEvent ρ}
  {c c' : Call ρ}

theorem CallMoved.follows_of (h : CallMoved op wrap adapter s i e s' c c')
    (hwrap : ∀ c, (wrap c).inFlight = c.isSending) (hf : Follows s g) {g' : Gate Nat}
    (hb : g'.breaker = s'.breaker)
    (hg : ∀ j, (g'.admission? j).isSome =
      if j = i then c'.isSending else (g.admission? j).isSome) : Follows s' g' := by
  refine ⟨hb, fun j => ?_⟩
  rw [hg j]
  by_cases hj : j = i
  · rw [if_pos hj, hj, h.inFlight_after hwrap]
  · rw [if_neg hj, h.inFlight_other hj, hf.admitted j]

theorem CallMoved.follows (h : CallMoved op wrap adapter s i e s' c c')
    (hwrap : ∀ c, (wrap c).inFlight = c.isSending) (hf : Follows s g) :
    ∃ g', Runs.run gateStep g (e.atGate op i (s.inFlight i)) = some g' ∧ Follows s' g' := by
  obtain ⟨b', calls'⟩ := s'
  obtain ⟨listed, hown, hmove, hcalls⟩ := id h
  have hflight : (g.admission? i).isSome = c.isSending :=
    (hf.admitted i).trans (h.inFlight_before hwrap)
  have hnew : c.pc = .entering → g.admission? i = none := by
    intro hpc
    simpa [Call.isSending, hpc] using hflight
  have hthere : c.pc = .sending → (g.admission? i).isSome = true := by
    intro hpc
    rw [hflight, Call.isSending_iff.mpr hpc]
  have hkept : c'.isSending = false → c.pc = .entering → ∀ j, (g.admission? j).isSome =
      if j = i then c'.isSending else (g.admission? j).isSome := by
    intro hc' hpc j
    by_cases hj : j = i
    · rw [if_pos hj, hj, hnew hpc, hc']
      rfl
    · rw [if_neg hj]
  cases hmove with
  | @refused gateAt _ hpc hgate =>
      have hgate' : g.breaker.allowRequest gateAt = (false, b') := hf.breaker ▸ hgate
      refine ⟨_, Runs.run_cons_eq_some.mpr ⟨_, gateStep_refused (hnew hpc) hgate', rfl⟩, ?_⟩
      exact h.follows_of hwrap hf rfl (hkept rfl hpc)
  | @late gateAt checkedAt _ hpc hgate =>
      have hgate' : g.breaker.allowRequest gateAt = (true, b') := hf.breaker ▸ hgate
      obtain ⟨a, rfl, hpassed⟩ := gateStep_passed (hnew hpc) hgate'
      have hleave := gateStep_leave (i := a.call)
        (g := { g with breaker := b', admitted := a :: g.admitted })
        (by rw [admission?_cons, if_pos rfl]; rfl)
      refine ⟨_, Runs.run_cons_eq_some.mpr ⟨_, hpassed,
        Runs.run_cons_eq_some.mpr ⟨_, hleave, rfl⟩⟩, ?_⟩
      refine h.follows_of hwrap hf rfl fun j => ?_
      rw [admission?_without _ _ a.call j rfl, admission?_cons]
      by_cases hj : j = a.call
      · simp [hj, Call.finish, Call.isSending]
      · simp [hj, Ne.symm hj]
  | @send gateAt checkedAt _ hpc hgate =>
      have hgate' : g.breaker.allowRequest gateAt = (true, b') := hf.breaker ▸ hgate
      obtain ⟨a, rfl, hpassed⟩ := gateStep_passed (hnew hpc) hgate'
      refine ⟨_, Runs.run_cons_eq_some.mpr ⟨_, hpassed, rfl⟩, ?_⟩
      refine h.follows_of hwrap hf rfl fun j => ?_
      rw [admission?_cons]
      by_cases hj : j = a.call
      · simp [hj, Call.isSending]
      · simp [hj, Ne.symm hj]
  | @ended _ r m hpc he =>
      obtain ⟨g', hrecord, hb, hleft⟩ :=
        gateStep_record (op.healthy r) m.recordedAt (hthere hpc)
      refine ⟨g', ?_, ?_⟩
      · cases he <;> exact Runs.run_cons_eq_some.mpr ⟨_, hrecord, rfl⟩
      · refine h.follows_of hwrap hf (hb.trans (congrArg _ hf.breaker)) fun j => ?_
        rw [admission?_without g g' i j hleft]
        rfl
  | @retried _ r m _ hpc he | @overflowed _ r m _ hpc he =>
      obtain ⟨g', hrecord, hb, hleft⟩ :=
        gateStep_record (op.healthy r) m.recordedAt (hthere hpc)
      refine ⟨g', ?_, ?_⟩
      · cases he <;> exact Runs.run_cons_eq_some.mpr ⟨_, hrecord, rfl⟩
      · refine h.follows_of hwrap hf (hb.trans (congrArg _ hf.breaker)) fun j => ?_
        rw [admission?_without g g' i j hleft]
        rfl
  | raised hpc =>
      rw [h.inFlight_before hwrap]
      rcases hpc with hpc | hpc
      · have hc : c.isSending = false := by simp [Call.isSending, hpc]
        exact ⟨g, by simp [CallEvent.atGate, hc], h.follows_of hwrap hf hf.breaker (hkept rfl hpc)⟩
      · have hc := Call.isSending_iff.mpr hpc
        refine ⟨_, by
          rw [hc]
          exact Runs.run_cons_eq_some.mpr ⟨_, gateStep_leave (hthere hpc), rfl⟩, ?_⟩
        refine h.follows_of hwrap hf hf.breaker fun j => ?_
        rw [admission?_without g _ i j rfl]
        rfl
  | others => cases hown

end

theorem follows_step {e : CallsEvent} (h : callsStep adapter s e = some s') (hf : Follows s g) :
    ∃ g', Runs.run gateStep g (e.atGate s) = some g' ∧ Follows s' g' := by
  cases e with
  | state now =>
      cases h
      refine ⟨_, Runs.run_cons_eq_some.mpr ⟨_, rfl, rfl⟩, ?_, hf.admitted⟩
      rw [hf.breaker]
  | startCredit now =>
      cases h
      exact ⟨g, rfl, hf.breaker, fun i => by rw [hf.admitted i, inFlight_append rfl]⟩
  | startStatus now =>
      cases h
      exact ⟨g, rfl, hf.breaker, fun i => by rw [hf.admitted i, inFlight_append rfl]⟩
  | credit i e =>
      obtain ⟨c, c', hm⟩ := callsStep_credit h
      exact hm.follows credit_inFlight hf
  | status i e =>
      obtain ⟨c, c', hm⟩ := callsStep_status h
      exact hm.follows status_inFlight hf

/-- Every run of the calls is a run of the gate, with the same breaker. -/
theorem calls_follow_gate {es : List CallsEvent}
    (h : Runs.run (callsStep adapter) s es = some s') (hf : Follows s g) :
    ∃ g', Runs.run gateStep g (gateEvents adapter s es) = some g' ∧ Follows s' g' := by
  induction es generalizing s g with
  | nil =>
      cases h
      exact ⟨g, rfl, hf⟩
  | cons e es ih =>
      obtain ⟨s₁, h₁, h₂⟩ := Runs.run_cons_eq_some.mp h
      obtain ⟨g₁, hg₁, hf₁⟩ := follows_step h₁ hf
      obtain ⟨g', hg', hf'⟩ := ih h₂ hf₁
      refine ⟨g', ?_, hf'⟩
      rw [gateEvents, h₁]
      exact Runs.run_append.mpr ⟨g₁, hg₁, hg'⟩

end

/-! ## With the default settings -/

/-- Five status calls reach their deadline without an answer. -/
def failedCalls : List CallsEvent :=
  (List.range 5).flatMap (fun i => [.startStatus 0, .status i (.send 0 0)]) ++
    (List.range 5).map fun i => .status i (.cutOff ⟨8, 8, 0⟩)

/-- After the cooldown a credit call is the trial, and succeeds. -/
def trialSucceeds : List CallsEvent :=
  [.startCredit 38, .credit 5 (.send 38 38),
    .credit 5 (.answer (HttpPartnerAdapter.creditPoints
      (.ok ⟨201, some (.obj [("confirmation_id", .str "c-1")])⟩)) ⟨39, 39, 0⟩)]

theorem recovers_iff_trialSucceeds :
    Runs.AllSteps (callsStep ({} : Settings).adapter) (fun s e => ∀ s',
      callsStep ({} : Settings).adapter s e = some s' → s'.Recovers) (.new 5 30)
      (failedCalls ++ trialSucceeds) := by
  have hruns : (Runs.run (callsStep ({} : Settings).adapter) (.new 5 30)
      (failedCalls ++ trialSucceeds)).isSome = true := by
    decide +kernel
  obtain ⟨s, hs⟩ := Option.isSome_iff_exists.mp hruns
  exact (recovers_iff hs).mpr (by decide +kernel)

/-- The trial is cancelled. -/
def cancelledTrial : List CallsEvent :=
  [.startCredit 38, .credit 5 (.send 38 38), .credit 5 .raise]

/-- Nothing is on its way, the flag is up, and whatever calls are made the
breaker refuses every request at every later moment. -/
theorem cancelled_trial_refuses :
    ∃ s, Runs.run (callsStep ({} : Settings).adapter) (.new 5 30) (failedCalls ++ cancelledTrial) =
        some s ∧ s.Quiet ∧ s.breaker.trialInFlight = true ∧
      ∀ es s', Runs.run (callsStep ({} : Settings).adapter) s es = some s' →
        ∀ now, (s'.breaker.allowRequest now).1 = false := by
  have hany : (Runs.run (callsStep ({} : Settings).adapter) (.new 5 30)
      (failedCalls ++ cancelledTrial)).any (fun s => s.calls.all (fun p => !p.inFlight) &&
        decide (s.breaker.state = .halfOpen) && s.breaker.trialInFlight) = true := by
    decide +kernel
  obtain ⟨s, hs, hall⟩ := (Option.any_eq_true _ _).mp hany
  simp only [Bool.and_eq_true, decide_eq_true_eq] at hall
  obtain ⟨⟨hquiet, hhalf⟩, hflag⟩ := hall
  have hstuck : s.Stuck := ⟨SharedBreaker.quiet_iff_all.mpr hquiet, hhalf, hflag⟩
  refine ⟨s, hs, hstuck.quiet, hflag, fun es s' hrun now => ?_⟩
  rw [(hstuck.run hrun).refuses now]

end LoyaltyTransfer
