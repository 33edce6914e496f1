/-
# `LoyaltyTransfer.Attempts` — the attempts of one call

The loop of `ResilientPartnerAdapter.credit_points`, as told by its attempts: how
many there are, what comes before each, what the call makes of their results, and
when it is back.  The other calls may do to the breaker what they like in
between, and the clock may read anything; only for the last part a delay takes
as long as it says and a timeout strikes when the time is up.

**Proved here.**  `credit_points_attempts_iff`, for every inner adapter that marks
no SUCCESS or REJECTED retryable, as the one over HTTP does not
(`creditPoints_settled`): the call keeps what it promises exactly when it does not
come to weigh a delay after its 1025th attempt, whose power of two is no float.
Otherwise it ends with an OverflowError (`failingCall_raises`).
-/
import LoyaltyTransfer.Resilience

namespace LoyaltyTransfer

/-- The result the event ends an attempt with. -/
def CallEvent.attemptResult : CallEvent PartnerCreditResult → Option PartnerCreditResult
  | .answer r _ => some r
  | .cutOff _ => some creditOperation.cutOff
  | _ => none

/-- The results of the attempts, in order. -/
def attemptResults (es : List (CallEvent PartnerCreditResult)) : List PartnerCreditResult :=
  es.filterMap CallEvent.attemptResult

def CallEvent.isSend {ρ : Type} : CallEvent ρ → Bool
  | .send _ _ => true
  | _ => false

/-- How often the inner adapter is called. -/
def innerCalls {ρ : Type} (es : List (CallEvent ρ)) : Nat := es.countP CallEvent.isSend

/-- No SUCCESS and no REJECTED is retryable. -/
def PartnerCreditResult.Settled (r : PartnerCreditResult) : Prop :=
  r.outcome = .success ∨ r.outcome = .rejected → r.retryable = false

theorem creditPoints_settled (response : Except TransportError HttpResponse) :
    (HttpPartnerAdapter.creditPoints response).Settled := by
  intro h
  cases response with
  | error e =>
      simp only [HttpPartnerAdapter.creditPoints] at h ⊢
      split at h <;> simp at h
  | ok r =>
      simp only [HttpPartnerAdapter.creditPoints, classifyCreditResponse] at h ⊢
      split
      · rename_i hok
        rw [if_pos hok] at h
        split
        · rfl
        · rename_i hconf
          simp [hconf] at h
      · rename_i hok
        rw [if_neg hok] at h
        split
        · rename_i hthrottled
          simp [hthrottled] at h
        · rename_i hthrottled
          rw [if_neg hthrottled] at h
          split
          · rfl
          · rename_i hclient
            simp [hclient] at h

/-- What the variables of the loop say of the attempts so far. -/
structure Call.Attempts (adapter : ResilientPartnerAdapter)
    (es : List (CallEvent PartnerCreditResult)) (c : Call PartnerCreditResult) : Prop where
  counted : c.attempts = innerCalls es
  allowed : (c.attempts : Int) ≤ adapter.retry.maxAttempts
  entering : c.pc = .entering → (attemptResults es).length = c.attempts ∧
    (c.attempts : Int) < adapter.retry.maxAttempts ∧ ∀ r ∈ attemptResults es, r.retryable = true
  sending : c.pc = .sending → (attemptResults es).length + 1 = c.attempts ∧
    ∀ r ∈ attemptResults es, r.retryable = true
  returned : ∀ x, c.pc = .returned x → (attemptResults es).length = c.attempts ∧
    x.attempts = c.attempts ∧ (∀ r ∈ (attemptResults es).dropLast, r.retryable = true) ∧
    (Refused es → ∀ r ∈ attemptResults es, r.retryable = true)

section

variable {adapter : ResilientPartnerAdapter} {b b' : CircuitBreaker}
  {c c' : Call PartnerCreditResult} {es : List (CallEvent PartnerCreditResult)}
  {e : CallEvent PartnerCreditResult} {r : PartnerCreditResult} {m : Moments}

@[simp] theorem attemptResults_append :
    attemptResults (es ++ [e]) = attemptResults es ++ e.attemptResult.toList := by
  cases h : e.attemptResult <;> simp [attemptResults, h]

@[simp] theorem innerCalls_append :
    innerCalls (es ++ [e]) = innerCalls es + if e.isSend then 1 else 0 := by
  simp [innerCalls, List.countP_append, List.countP_singleton]

theorem EndsAttempt.result (he : EndsAttempt creditOperation e r m) :
    e.attemptResult = some r ∧ e.isSend = false ∧ e.isRefusal = false := by
  cases he <;> exact ⟨rfl, rfl, rfl⟩

/-- An event that starts no attempt and ends none. -/
theorem Call.Attempts.idle (h : c.Attempts adapter es) (hresult : e.attemptResult = none)
    (hsend : e.isSend = false) (hrefusal : e.isRefusal = false) :
    c.Attempts adapter (es ++ [e]) := by
  have hresults : attemptResults (es ++ [e]) = attemptResults es := by simp [hresult]
  have hcalls : innerCalls (es ++ [e]) = innerCalls es := by simp [hsend]
  have hrefused : Refused (es ++ [e]) ↔ Refused es := by simp [refused_append, hrefusal]
  constructor
  · rw [hcalls]
    exact h.counted
  · exact h.allowed
  · rw [hresults]
    exact h.entering
  · rw [hresults]
    exact h.sending
  · rw [hresults, hrefused]
    exact h.returned

/-- The loop ends before another attempt. -/
theorem Call.Attempts.finish (h : c.Attempts adapter es) (hpc : c.pc = .entering)
    (hresult : e.attemptResult = none) (hsend : e.isSend = false) :
    (c.finish creditOperation r).Attempts adapter (es ++ [e]) := by
  obtain ⟨hlen, -, hall⟩ := h.entering hpc
  have hresults : attemptResults (es ++ [e]) = attemptResults es := by simp [hresult]
  refine ⟨?_, h.allowed, by rintro ⟨⟩, by rintro ⟨⟩, ?_⟩
  · rw [innerCalls_append, hsend]
    exact h.counted
  · intro x hx
    cases hx
    rw [hresults]
    exact ⟨hlen, rfl, fun r hr => hall r (List.dropLast_subset _ hr), fun _ => hall⟩

theorem Call.Attempts.step (h : c.Attempts adapter es) (hrefused : c.pc = .sending → ¬ Refused es)
    (hm : CallMove creditOperation adapter b c e b' c') : c'.Attempts adapter (es ++ [e]) := by
  cases hm with
  | refused hpc hgate => exact h.finish hpc rfl rfl
  | late hpc hgate hlate => exact h.finish hpc rfl rfl
  | @send gateAt checkedAt _ hpc hgate htime =>
      obtain ⟨hlen, hleft, hall⟩ := h.entering hpc
      have hresults : attemptResults (es ++ [.send gateAt checkedAt]) = attemptResults es := by
        simp [CallEvent.attemptResult]
      refine ⟨?_, ?_, by simp, ?_, by simp⟩
      · simp [h.counted, CallEvent.isSend]
      · push_cast
        omega
      · intro _
        rw [hresults, hlen]
        exact ⟨rfl, hall⟩
  | @ended _ r m hpc he hstop =>
      obtain ⟨hresult, hsend, hrefusal⟩ := he.result
      obtain ⟨hlen, hall⟩ := h.sending hpc
      refine ⟨?_, h.allowed, by rintro ⟨⟩, by rintro ⟨⟩, ?_⟩
      · rw [innerCalls_append, hsend]
        exact h.counted
      · intro x hx
        cases hx
        have hno : ¬ Refused (es ++ [e]) := by
          simp [refused_append, hrefusal, hrefused hpc]
        simp only [attemptResults_append, hresult, Option.toList_some, List.length_append,
          List.length_singleton, List.dropLast_concat]
        exact ⟨hlen, rfl, hall, fun h => absurd h hno⟩
  | overflowed hpc he =>
      obtain ⟨-, hsend, -⟩ := he.result
      refine ⟨?_, h.allowed, by simp, by simp, by simp⟩
      rw [innerCalls_append, hsend]
      exact h.counted
  | @retried _ r m _ hpc he hretry hleft hdelay htime =>
      obtain ⟨hresult, hsend, hrefusal⟩ := he.result
      obtain ⟨hlen, hall⟩ := h.sending hpc
      refine ⟨?_, h.allowed, ?_, by simp, by simp⟩
      · rw [innerCalls_append, hsend]
        exact h.counted
      · intro _
        simp only [attemptResults_append, hresult, Option.toList_some, List.length_append,
          List.length_singleton, List.mem_append, List.mem_singleton]
        refine ⟨hlen, hleft, ?_⟩
        rintro x (hx | rfl)
        · exact hall x hx
        · exact hretry
  | raised hpc =>
      refine ⟨?_, h.allowed, by simp, by simp, by simp⟩
      simp [h.counted, CallEvent.isSend]
  | others => exact h.idle rfl rfl rfl

/-- The loop from its start. -/
theorem Call.attempts_of_run {startedAt : Time} (hmax : 1 ≤ adapter.retry.maxAttempts)
    (h : Runs.run (callStep creditOperation adapter) (b, adapter.start _ startedAt) es =
      some (b', c)) : c.Attempts adapter es ∧ c.deadline = startedAt + adapter.deadlineSeconds := by
  induction es using List.reverseRecOn generalizing b' c with
  | nil =>
      cases h
      refine ⟨⟨rfl, ?_, ?_, by rintro ⟨⟩, by rintro _ ⟨⟩⟩, rfl⟩
      · show (0 : Int) ≤ _
        omega
      · intro _
        refine ⟨rfl, ?_, by simp [attemptResults]⟩
        show (0 : Int) < _
        omega
  | append_singleton es e ih =>
      obtain ⟨⟨b₁, c₁⟩, h₁, h₂⟩ := Runs.run_append.mp h
      obtain ⟨s₂, h₂, h₃⟩ := Runs.run_cons_eq_some.mp h₂
      cases h₃
      have hm := callStep_move h₂
      obtain ⟨hattempts, hdeadline⟩ := ih h₁
      refine ⟨hattempts.step (fun hpc => ((Call.history h₁).running (.inr hpc)).1) hm, ?_⟩
      cases hm <;> exact hdeadline

/-! ## The delays -/

/-- No delay is weighed after the 1025th attempt: no more are allowed, or it is not to be
repeated. -/
def StopsInTime (adapter : ResilientPartnerAdapter) (es : List (CallEvent PartnerCreditResult)) :
    Prop :=
  adapter.retry.maxAttempts ≤ 1025 ∨
    ∀ r, (attemptResults es)[1024]? = some r → r.retryable = false

theorem stopsInTime_append_of_none (he : e.attemptResult = none) :
    StopsInTime adapter (es ++ [e]) ↔ StopsInTime adapter es := by
  simp [StopsInTime, he]

theorem stopsInTime_append {n : Nat} (hlen : (attemptResults es).length + 1 = n) (hn : n ≤ 1025)
    (he : e.attemptResult = some r) : StopsInTime adapter (es ++ [e]) ↔
      adapter.retry.maxAttempts ≤ 1025 ∨ (n = 1025 → r.retryable = false) := by
  refine or_congr Iff.rfl ?_
  rw [attemptResults_append, he, Option.toList_some]
  by_cases hlast : n = 1025
  · have hat : (attemptResults es).length = 1024 := by omega
    rw [← hat, List.getElem?_concat_length]
    simp [hlast]
  · have hover : (attemptResults es ++ [r]).length ≤ 1024 := by
      rw [List.length_append, List.length_singleton]
      omega
    simp [List.getElem?_eq_none hover, hlast]

/-- The call ends with an error of its own exactly when it does not stop in time. -/
structure Call.Delays (adapter : ResilientPartnerAdapter)
    (es : List (CallEvent PartnerCreditResult)) (c : Call PartnerCreditResult) : Prop where
  entering : c.pc = .entering → c.attempts ≤ 1024
  sending : c.pc = .sending → c.attempts ≤ 1025
  unraised : c.pc ≠ .raised → .raise ∉ es
  raised : c.pc = .raised ∧ .raise ∉ es ↔ ¬ StopsInTime adapter es

theorem Call.Delays.stops (h : c.Delays adapter es) (hpc : c.pc ≠ .raised) :
    StopsInTime adapter es := by
  by_contra hno
  exact hpc (h.raised.mpr hno).1

/-- An event after which the loop goes on as it was, or is over. -/
theorem Call.Delays.next (h : c.Delays adapter es) (hpc : c.pc ≠ .raised)
    (hstops : StopsInTime adapter (es ++ [e])) (he : e ≠ .raise) (hpc' : c'.pc ≠ .raised)
    (hentering : c'.pc = .entering → c'.attempts ≤ 1024)
    (hsending : c'.pc = .sending → c'.attempts ≤ 1025) : c'.Delays adapter (es ++ [e]) where
  entering := hentering
  sending := hsending
  unraised := by
    intro _ hmem
    rcases List.mem_append.mp hmem with hmem | hmem
    · exact h.unraised hpc hmem
    · exact he (List.mem_singleton.mp hmem).symm
  raised := iff_of_false (fun hraised => hpc' hraised.1) (not_not.mpr hstops)

theorem Call.Delays.step (h : c.Delays adapter es) (ha : c.Attempts adapter es)
    (hm : CallMove creditOperation adapter b c e b' c') : c'.Delays adapter (es ++ [e]) := by
  have hidle : ∀ {pc}, c.pc = pc → pc ≠ .raised → e.attemptResult = none →
      StopsInTime adapter (es ++ [e]) := by
    rintro _ rfl hpc he
    exact (stopsInTime_append_of_none he).mpr (h.stops hpc)
  cases hm with
  | refused hpc =>
      exact h.next (by simp [hpc]) (hidle hpc (by simp) rfl) (by simp) (by rintro ⟨⟩)
        (by rintro ⟨⟩) (by rintro ⟨⟩)
  | late hpc =>
      exact h.next (by simp [hpc]) (hidle hpc (by simp) rfl) (by simp) (by rintro ⟨⟩)
        (by rintro ⟨⟩) (by rintro ⟨⟩)
  | send hpc =>
      refine h.next (by simp [hpc]) (hidle hpc (by simp) rfl) (by simp) (by rintro ⟨⟩)
        (by rintro ⟨⟩) ?_
      intro _
      exact Nat.succ_le_succ (h.entering hpc)
  | @ended _ r m hpc he hstop =>
      obtain ⟨hresult, -, -⟩ := he.result
      have hsmall := h.sending hpc
      refine h.next (by simp [hpc]) ((stopsInTime_append (ha.sending hpc).1 hsmall hresult).mpr ?_)
        (by cases he <;> simp) (by rintro ⟨⟩) (by rintro ⟨⟩) (by rintro ⟨⟩)
      rcases hstop with hstop | hstop | ⟨_, hdelay, -⟩
      · exact .inr fun _ => hstop
      · exact .inl (by omega)
      · have := RetryPolicy.backoff_ok hdelay
        exact .inr (by omega)
  | @retried _ r m _ hpc he hretry hleft hdelay htime =>
      obtain ⟨hresult, -, -⟩ := he.result
      have hsmall := RetryPolicy.backoff_ok hdelay
      refine h.next (by simp [hpc])
        ((stopsInTime_append (ha.sending hpc).1 (h.sending hpc) hresult).mpr (.inr (by omega)))
        (by cases he <;> simp) (by rintro ⟨⟩) (fun _ => hsmall) (by rintro ⟨⟩)
  | @overflowed _ r m _ hpc he hretry hleft hdelay =>
      obtain ⟨hresult, -, -⟩ := he.result
      have hsmall := h.sending hpc
      have hlarge := RetryPolicy.backoff_error hdelay
      have hretry : r.retryable = true := hretry
      have hunraised : .raise ∉ es ++ [e] := by
        rw [List.mem_append, not_or]
        exact ⟨h.unraised (by simp [hpc]), by cases he <;> simp⟩
      refine ⟨by rintro ⟨⟩, by rintro ⟨⟩, fun hno => absurd rfl hno,
        iff_of_true ⟨rfl, hunraised⟩ ?_⟩
      rw [stopsInTime_append (ha.sending hpc).1 hsmall hresult, not_or]
      refine ⟨by omega, fun hno => ?_⟩
      cases hretry.symm.trans (hno (by omega))
  | raised hpc =>
      have hpc' : c.pc ≠ .raised := by rcases hpc with hpc | hpc <;> simp [hpc]
      refine ⟨by rintro ⟨⟩, by rintro ⟨⟩, fun hno => absurd rfl hno, iff_of_false ?_ ?_⟩
      · rintro ⟨-, hno⟩
        exact hno (List.mem_append_right _ (List.mem_singleton_self _))
      · exact not_not.mpr (hidle rfl hpc' rfl)
  | others =>
      have hmem : .raise ∈ es ++ [.others b'] ↔ .raise ∈ es := by simp
      refine ⟨h.entering, h.sending, ?_, ?_⟩
      · rw [hmem]
        exact h.unraised
      · rw [hmem, stopsInTime_append_of_none rfl]
        exact h.raised

/-! ## The outcome -/

theorem attemptOutcomes_eq :
    attemptOutcomes es = (attemptResults es).map PartnerCreditResult.outcome := by
  have hone : ∀ e : CallEvent PartnerCreditResult,
      e.attemptOutcome = e.attemptResult.map PartnerCreditResult.outcome := by
    intro e
    cases e <;> rfl
  rw [attemptOutcomes, attemptResults, List.map_filterMap]
  exact congrArg (fun f => es.filterMap f) (funext hone)

/-- What a call makes of the results of its attempts. -/
structure ConcludedFrom (results : List PartnerCreditResult) (outcome : CreditOutcome) : Prop where
  success : outcome = .success ↔ results.getLast?.map PartnerCreditResult.outcome = some .success
  rejected : outcome = .rejected ↔
    results.getLast?.map PartnerCreditResult.outcome = some .rejected
  notSent : outcome = .notSent ↔ ∀ r ∈ results, r.outcome = .notSent
  unknown : outcome = .unknown ↔
    results.getLast?.map PartnerCreditResult.outcome ≠ some .success ∧
    results.getLast?.map PartnerCreditResult.outcome ≠ some .rejected ∧
    ¬ ∀ r ∈ results, r.outcome = .notSent

theorem ConcludedFrom.of_three {results : List PartnerCreditResult} {outcome : CreditOutcome}
    (hs : outcome = .success ↔ results.getLast?.map PartnerCreditResult.outcome = some .success)
    (hr : outcome = .rejected ↔ results.getLast?.map PartnerCreditResult.outcome = some .rejected)
    (hn : outcome = .notSent ↔ ∀ r ∈ results, r.outcome = .notSent) :
    ConcludedFrom results outcome := by
  refine ⟨hs, hr, hn, ?_⟩
  rw [ne_eq, ne_eq, ← hs, ← hr, ← hn]
  cases outcome <;> simp

/-- The outcome the loop ends with, less the downgrade. -/
def concluded (possiblyApplied : Bool) (last : CreditOutcome) : CreditOutcome :=
  if possiblyApplied ∧ last = .notSent then .unknown else last

/-- The circuit was open after attempts that were all to be retried. -/
theorem ConcludedFrom.of_refused {results : List PartnerCreditResult} {possiblyApplied : Bool}
    (happlied : possiblyApplied = true ↔ .unknown ∈ results.map PartnerCreditResult.outcome)
    (hall : ∀ r ∈ results, r.outcome = .notSent ∨ r.outcome = .unknown) :
    ConcludedFrom results (concluded possiblyApplied .notSent) := by
  have hlast : ∀ o, results.getLast?.map PartnerCreditResult.outcome = some o →
      o = .notSent ∨ o = .unknown := by
    intro o ho
    obtain ⟨r, hr, rfl⟩ := Option.map_eq_some_iff.mp ho
    exact hall r (List.mem_of_getLast? hr)
  have hsuccess : results.getLast?.map PartnerCreditResult.outcome ≠ some .success := by
    intro h
    rcases hlast _ h with h | h <;> cases h
  have hrejected : results.getLast?.map PartnerCreditResult.outcome ≠ some .rejected := by
    intro h
    rcases hlast _ h with h | h <;> cases h
  cases hp : possiblyApplied with
  | true =>
      have hunknown := happlied.mp hp
      refine .of_three (iff_of_false (by decide) hsuccess) (iff_of_false (by decide) hrejected)
        (iff_of_false (by decide) fun hall => ?_)
      obtain ⟨r, hr, hrunknown⟩ := List.mem_map.mp hunknown
      cases (hall r hr).symm.trans hrunknown
  | false =>
      have hnever : ∀ r ∈ results, r.outcome ≠ .unknown := by
        intro r hr hrunknown
        rw [happlied.mpr (List.mem_map.mpr ⟨r, hr, hrunknown⟩)] at hp
        cases hp
      exact .of_three (iff_of_false (by decide) hsuccess) (iff_of_false (by decide) hrejected)
        (iff_of_true (by decide) fun r hr => (hall r hr).resolve_right (hnever r hr))

/-- The loop ended with the result of the last attempt. -/
theorem ConcludedFrom.of_last {results : List PartnerCreditResult} {possiblyApplied : Bool}
    (happlied : possiblyApplied = true ↔ .unknown ∈ results.map PartnerCreditResult.outcome)
    (hearlier : ∀ r ∈ results.dropLast, r.outcome = .notSent ∨ r.outcome = .unknown) :
    ConcludedFrom results (concluded possiblyApplied
      ((results.map PartnerCreditResult.outcome).getLast?.getD .notSent)) := by
  induction results using List.reverseRecOn with
  | nil =>
      have hp : possiblyApplied = false := by simpa using happlied
      exact .of_three (by simp [concluded, hp]) (by simp [concluded, hp]) (by simp [concluded, hp])
  | append_singleton results r _ =>
      rw [List.dropLast_concat] at hearlier
      simp only [List.map_append, List.map_cons, List.map_nil, List.getLast?_concat,
        Option.getD_some]
      by_cases hr : r.outcome = .notSent
      · have hall : ∀ x ∈ results ++ [r], x.outcome = .notSent ∨ x.outcome = .unknown := by
          intro x hx
          rcases List.mem_append.mp hx with hx | hx
          · exact hearlier x hx
          · rw [List.mem_singleton.mp hx]
            exact .inl hr
        rw [hr]
        exact .of_refused happlied hall
      · have hout : concluded possiblyApplied r.outcome = r.outcome := by simp [concluded, hr]
        rw [hout]
        exact .of_three (by simp) (by simp) (by simp [hr])

theorem Call.concludedFrom {startedAt : Time} (hmax : 1 ≤ adapter.retry.maxAttempts)
    (hinner : ∀ r m, .answer r m ∈ es → r.Settled)
    (h : Runs.run (callStep creditOperation adapter) (b, adapter.start _ startedAt) es =
      some (b', c)) {x : PartnerCreditResult} (hx : c.pc = .returned x) :
    ConcludedFrom (attemptResults es) x.outcome := by
  obtain ⟨hattempts, -⟩ := Call.attempts_of_run hmax h
  obtain ⟨hlen, -, hearlier, hall⟩ := hattempts.returned x hx
  have hhistory := Call.history h
  obtain ⟨last, hlast, houtcome⟩ := hhistory.returned x hx
  have happlied := hhistory.applied
  rw [LastOutcome, attemptOutcomes_eq] at hlast
  rw [attemptOutcomes_eq] at happlied
  -- a result that is retried is NOT_SENT or UNKNOWN
  have hsettled : ∀ r ∈ attemptResults es, r.Settled := by
    intro r hr
    obtain ⟨e, he, hres⟩ := List.mem_filterMap.mp hr
    cases e with
    | answer r' m =>
        cases hres
        exact hinner _ m he
    | cutOff m =>
        cases hres
        exact fun _ => rfl
    | _ => cases hres
  have hretried : ∀ r ∈ attemptResults es, r.retryable = true →
      r.outcome = .notSent ∨ r.outcome = .unknown := by
    intro r hr hretry
    cases ho : r.outcome with
    | success => cases hretry.symm.trans (hsettled r hr (.inl ho))
    | rejected => cases hretry.symm.trans (hsettled r hr (.inr ho))
    | notSent => exact .inl rfl
    | unknown => exact .inr rfl
  have hx' : x.outcome = concluded c.possiblyApplied last.outcome := by
    rw [houtcome]
    simp only [creditOperation, concluded]
    split <;> rfl
  rw [hx']
  rcases hlast with ⟨hrefused, ho⟩ | ⟨-, ho⟩
  · rw [ho]
    exact .of_refused happlied fun r hr => hretried r hr (hall hrefused r hr)
  · rw [ho]
    exact .of_last happlied fun r hr =>
      hretried r (List.dropLast_subset _ hr) (hearlier r hr)

/-- How many events of its own the call has had. -/
theorem Call.own_events {startedAt : Time}
    (h : Runs.run (callStep creditOperation adapter) (b, adapter.start _ startedAt) es =
      some (b', c)) :
    (c.pc = .entering → es.countP CallEvent.isOwn = 2 * c.attempts) ∧
    (c.pc = .sending → es.countP CallEvent.isOwn + 1 = 2 * c.attempts) ∧
    es.countP CallEvent.isOwn ≤ 2 * c.attempts + 1 := by
  induction es using List.reverseRecOn generalizing b' c with
  | nil =>
      cases h
      exact ⟨fun _ => rfl, by rintro ⟨⟩, Nat.zero_le _⟩
  | append_singleton es e ih =>
      obtain ⟨⟨b₁, c₁⟩, h₁, h₂⟩ := Runs.run_append.mp h
      obtain ⟨s₂, h₂, h₃⟩ := Runs.run_cons_eq_some.mp h₂
      cases h₃
      obtain ⟨hentering, hsending, hle⟩ := ih h₁
      rw [List.countP_append, List.countP_singleton]
      cases callStep_move h₂ with
      | refused hpc =>
          refine ⟨by rintro ⟨⟩, by rintro ⟨⟩, ?_⟩
          simp [hentering hpc, CallEvent.isOwn, Call.finish]
      | late hpc =>
          refine ⟨by rintro ⟨⟩, by rintro ⟨⟩, ?_⟩
          simp [hentering hpc, CallEvent.isOwn, Call.finish]
      | send hpc =>
          have := hentering hpc
          refine ⟨by simp, fun _ => ?_, ?_⟩
          all_goals
            simp only [CallEvent.isOwn, if_true]
            omega
      | @ended _ r m hpc he =>
          have hown : e.isOwn = true := by cases he <;> rfl
          have := hsending hpc
          refine ⟨by rintro ⟨⟩, by rintro ⟨⟩, ?_⟩
          simp only [hown, if_true, Call.finish, Call.noted]
          omega
      | @overflowed _ r m _ hpc he =>
          have hown : e.isOwn = true := by cases he <;> rfl
          have := hsending hpc
          refine ⟨by simp, by simp, ?_⟩
          simp only [hown, if_true, Call.noted]
          omega
      | @retried _ r m _ hpc he =>
          have hown : e.isOwn = true := by cases he <;> rfl
          have := hsending hpc
          refine ⟨fun _ => ?_, by simp, ?_⟩
          all_goals
            simp only [hown, if_true, Call.noted]
            omega
      | raised hpc =>
          refine ⟨by simp, by simp, ?_⟩
          simp only [CallEvent.isOwn, if_true]
          rcases hpc with hpc | hpc
          · have := hentering hpc
            omega
          · have := hsending hpc
            omega
      | others => exact ⟨hentering, hsending, hle⟩

/-! ## The deadline -/

/-- The call, and the time. -/
structure TimedCall where
  clock : Time
  breaker : CircuitBreaker
  call : Call PartnerCreditResult

/-- Only attempts and delays take time: an attempt is answered before its
deadline or cut off at it. -/
def CallEvent.onTime {ρ : Type} (clock deadline : Time) : CallEvent ρ → Prop
  | .refused gateAt => gateAt = clock
  | .late gateAt checkedAt | .send gateAt checkedAt => gateAt = clock ∧ checkedAt = clock
  | .answer _ m => clock ≤ m.recordedAt ∧ m.recordedAt = m.weighedAt ∧ m.weighedAt ≤ deadline
  | .cutOff m => m.recordedAt = deadline ∧ m.weighedAt = deadline
  | .raise | .others _ => True

instance {ρ : Type} (clock deadline : Time) :
    DecidablePred (CallEvent.onTime (ρ := ρ) clock deadline)
  | .refused _ => inferInstanceAs (Decidable (_ = _))
  | .late _ _ | .send _ _ | .cutOff _ => inferInstanceAs (Decidable (_ ∧ _))
  | .answer _ _ => inferInstanceAs (Decidable (_ ∧ _ ∧ _))
  | .raise | .others _ => isTrue trivial

/-- The time after the event; a call that goes on has slept its delay. -/
def CallEvent.clockAfter {ρ : Type} (adapter : ResilientPartnerAdapter) (clock : Time)
    (c c' : Call ρ) : CallEvent ρ → Time
  | .answer _ m | .cutOff m =>
      match c'.pc, adapter.retry.backoff c.attempts m.rand with
      | .entering, .ok delay => m.weighedAt + delay
      | _, _ => m.weighedAt
  | _ => clock

def exactStep (adapter : ResilientPartnerAdapter) (s : TimedCall)
    (e : CallEvent PartnerCreditResult) : Option TimedCall :=
  if e.onTime s.clock s.call.deadline then
    (callStep creditOperation adapter (s.breaker, s.call) e).map fun x =>
      ⟨e.clockAfter adapter s.clock s.call x.2, x.1, x.2⟩
  else none

theorem exactStep_move {s s' : TimedCall} (h : exactStep adapter s e = some s') :
    e.onTime s.clock s.call.deadline ∧
      CallMove creditOperation adapter s.breaker s.call e s'.breaker s'.call ∧
      s'.clock = e.clockAfter adapter s.clock s.call s'.call := by
  simp only [exactStep] at h
  split at h
  · rename_i hon
    obtain ⟨⟨b', c'⟩, hstep, rfl⟩ := Option.map_eq_some_iff.mp h
    exact ⟨hon, callStep_move hstep, rfl⟩
  · cases h

/-- The time never passes the deadline. -/
theorem exactStep_clock {s s' : TimedCall} (h : exactStep adapter s e = some s')
    (hs : s.clock ≤ s.call.deadline) :
    s'.clock ≤ s'.call.deadline ∧ s'.call.deadline = s.call.deadline := by
  obtain ⟨clock', b', c'⟩ := s'
  obtain ⟨hon, hmove, hclock⟩ := exactStep_move h
  simp only at hclock hmove ⊢
  subst hclock
  cases hmove with
  | refused => exact ⟨hs, rfl⟩
  | late => exact ⟨hs, rfl⟩
  | send => exact ⟨hs, rfl⟩
  | ended hpc he hstop =>
      cases he with
      | answer r m => exact ⟨hon.2.2, rfl⟩
      | cutOff m => exact ⟨hon.2.le, rfl⟩
  | retried hpc he hretry hleft hdelay htime =>
      cases he with
      | answer r m =>
          simp only [CallEvent.clockAfter, Call.noted, hdelay, and_true]
          exact htime.le
      | cutOff m => cases hretry
  | overflowed hpc he hretry =>
      cases he with
      | answer r m => exact ⟨hon.2.2, rfl⟩
      | cutOff m => cases hretry
  | raised => exact ⟨hs, rfl⟩
  | others => exact ⟨hs, rfl⟩

/-- A call that is not over goes on. -/
theorem exactStep_progress (s : TimedCall)
    (h : s.call.pc = .entering ∨ s.call.pc = .sending) :
    ∃ e s', e.isOwn = true ∧ e ≠ .raise ∧ exactStep adapter s e = some s' := by
  rcases h with hpc | hpc
  · rcases hgate : s.breaker.allowRequest s.clock with ⟨answer, b⟩
    cases answer with
    | false =>
        exact ⟨.refused s.clock, _, rfl, by simp, by
          simp [exactStep, CallEvent.onTime, callStep, hpc, hgate]; rfl⟩
    | true =>
        by_cases hlate : s.call.deadline - s.clock ≤ 0
        · exact ⟨.late s.clock s.clock, _, rfl, by simp, by
            simp [exactStep, CallEvent.onTime, callStep, hpc, hgate, hlate]; rfl⟩
        · exact ⟨.send s.clock s.clock, _, rfl, by simp, by
            simp [exactStep, CallEvent.onTime, callStep, hpc, hgate, hlate]; rfl⟩
  · exact ⟨.cutOff ⟨s.call.deadline, s.call.deadline, 0⟩, _, rfl, by simp, by
      simp [exactStep, CallEvent.onTime, callStep, hpc]; rfl⟩

theorem exact_run_clock {s s' : TimedCall} (h : Runs.run (exactStep adapter) s es = some s')
    (hs : s.clock ≤ s.call.deadline) : s'.clock ≤ s.call.deadline := by
  have hinv := Runs.run_invariant
    (I := fun x : TimedCall => x.clock ≤ x.call.deadline ∧ x.call.deadline = s.call.deadline)
    (fun x e x' hx hstep => ⟨(exactStep_clock hstep hx.1).1,
      (exactStep_clock hstep hx.1).2.trans hx.2⟩) ⟨hs, rfl⟩ h
  exact hinv.1.trans_eq hinv.2

theorem Call.delays_of_run {startedAt : Time} (hmax : 1 ≤ adapter.retry.maxAttempts)
    (h : Runs.run (callStep creditOperation adapter) (b, adapter.start _ startedAt) es =
      some (b', c)) : c.Delays adapter es := by
  induction es using List.reverseRecOn generalizing b' c with
  | nil =>
      cases h
      refine ⟨fun _ => Nat.zero_le _, by rintro ⟨⟩, by simp, iff_of_false ?_ ?_⟩
      · rintro ⟨⟨⟩, -⟩
      · exact not_not.mpr (.inr (by simp [attemptResults]))
  | append_singleton es e ih =>
      obtain ⟨⟨b₁, c₁⟩, h₁, h₂⟩ := Runs.run_append.mp h
      obtain ⟨s₂, h₂, h₃⟩ := Runs.run_cons_eq_some.mp h₂
      cases h₃
      exact (ih h₁).step (Call.attempts_of_run hmax h₁).1 (callStep_move h₂)

/-- What comes before an attempt. -/
theorem Call.before_send {startedAt : Time} (hmax : 1 ≤ adapter.retry.maxAttempts)
    {before after : List (CallEvent PartnerCreditResult)} {gateAt checkedAt : Time}
    (h : Runs.run (callStep creditOperation adapter) (b, adapter.start _ startedAt)
      (before ++ .send gateAt checkedAt :: after) = some (b', c)) :
    (attemptResults before).length = innerCalls before ∧
    (∀ r, (attemptResults before).getLast? = some r → r.retryable = true) ∧
    (∃ b₁ c₁, Runs.run (callStep creditOperation adapter) (b, adapter.start _ startedAt) before =
      some (b₁, c₁) ∧ (b₁.allowRequest gateAt).1 = true) ∧
    checkedAt < startedAt + adapter.deadlineSeconds := by
  obtain ⟨⟨b₁, c₁⟩, h₁, h₂⟩ := Runs.run_append.mp h
  obtain ⟨⟨b₂, c₂⟩, h₂, -⟩ := Runs.run_cons_eq_some.mp h₂
  obtain ⟨hattempts, hdeadline⟩ := Call.attempts_of_run hmax h₁
  cases callStep_move h₂ with
  | send hpc hgate htime =>
      obtain ⟨hlen, -, hall⟩ := hattempts.entering hpc
      refine ⟨hlen.trans hattempts.counted, ?_, ⟨b₁, c₁, h₁, by rw [hgate]⟩, hdeadline ▸ htime⟩
      exact fun r hr => hall r (List.mem_of_getLast? hr)
  | ended _ he => cases he
  | retried _ he => cases he
  | overflowed _ he => cases he

/-- What one call of `credit_points` is to keep, the results of its inner calls in order:
how many inner calls it makes, what precedes each, that it returns unless an exception
comes from without, and what.  When delays and timeouts are exact it is back by its
deadline, after finitely many events of its own. -/
structure AttemptsKept (adapter : ResilientPartnerAdapter) (b : CircuitBreaker) (startedAt : Time)
    (es : List (CallEvent PartnerCreditResult)) (c : Call PartnerCreditResult) : Prop where
  allowed : (innerCalls es : Int) ≤ adapter.retry.maxAttempts
  preceded : ∀ before gateAt checkedAt after, es = before ++ .send gateAt checkedAt :: after →
    (attemptResults before).length = innerCalls before ∧
    (∀ r, (attemptResults before).getLast? = some r → r.retryable = true) ∧
    (∃ b₁ c₁, Runs.run (callStep creditOperation adapter) (b, adapter.start _ startedAt)
      before = some (b₁, c₁) ∧ (b₁.allowRequest gateAt).1 = true) ∧
    checkedAt < startedAt + adapter.deadlineSeconds
  returns : c.pc = .raised → .raise ∈ es
  concluded : ∀ x, c.pc = .returned x →
    x.attempts = innerCalls es ∧ (attemptResults es).length = innerCalls es ∧
    ConcludedFrom (attemptResults es) x.outcome
  finite : (es.countP CallEvent.isOwn : Int) ≤ 2 * adapter.retry.maxAttempts + 1
  inTime : 0 ≤ adapter.deadlineSeconds → ∀ s,
    Runs.run (exactStep adapter) ⟨startedAt, b, adapter.start _ startedAt⟩ es = some s →
      s.clock ≤ startedAt + adapter.deadlineSeconds ∧
      (s.call.pc = .entering ∨ s.call.pc = .sending →
        ∃ e s', e.isOwn = true ∧ e ≠ .raise ∧ exactStep adapter s e = some s')

/-- The call keeps it, whatever the answers, the breaker and the clock, exactly when at
most 1025 attempts are allowed or its 1025th is not to be repeated. -/
theorem credit_points_attempts_iff {startedAt : Time} (hmax : 1 ≤ adapter.retry.maxAttempts)
    (hinner : ∀ r m, .answer r m ∈ es → r.Settled)
    (h : Runs.run (callStep creditOperation adapter) (b, adapter.start _ startedAt) es =
      some (b', c)) :
    AttemptsKept adapter b startedAt es c ↔
      adapter.retry.maxAttempts ≤ 1025 ∨
        ∀ r, (attemptResults es)[1024]? = some r → r.retryable = false := by
  obtain ⟨hattempts, -⟩ := Call.attempts_of_run hmax h
  have hdelays := Call.delays_of_run hmax h
  constructor
  · intro hkept
    by_contra hno
    obtain ⟨hpc, hunraised⟩ := hdelays.raised.mpr hno
    exact hunraised (hkept.returns hpc)
  · intro hstops
    refine ⟨?_, ?_, ?_, ?_, ?_, ?_⟩
    · rw [← hattempts.counted]
      exact hattempts.allowed
    · rintro before gateAt checkedAt after rfl
      exact Call.before_send hmax h
    · intro hpc
      by_contra hunraised
      exact hdelays.raised.mp ⟨hpc, hunraised⟩ hstops
    · intro x hx
      obtain ⟨hlen, hcount, -⟩ := hattempts.returned x hx
      rw [← hattempts.counted]
      exact ⟨hcount, hlen, Call.concludedFrom hmax hinner h hx⟩
    · have hown := (Call.own_events h).2.2
      have := hattempts.allowed
      omega
    · intro hdeadline s hs
      exact ⟨exact_run_clock hs (le_add_of_nonneg_right hdeadline), exactStep_progress s⟩

end

def CallPc.isRaised {ρ : Type} : CallPc ρ → Bool
  | .raised => true
  | _ => false

theorem CallPc.isRaised_iff {ρ : Type} {pc : CallPc ρ} : pc.isRaised = true ↔ pc = .raised := by
  cases pc <;> simp [isRaised]

/-- No response to the first attempt; after a delay of 100 ms a second one, cut
off at the deadline. -/
def cutOffCall : List (CallEvent PartnerCreditResult) :=
  [.send 5 5, .answer (HttpPartnerAdapter.creditPoints (.error (.other "ReadTimeout"))) ⟨8, 8, 1⟩,
    .send (81 / 10) (81 / 10), .cutOff ⟨13, 13, 0⟩]

theorem credit_points_attempts_iff_cutOffCall :
    ∃ b c x s, sampleCall cutOffCall = some (b, c) ∧ c.pc = .returned x ∧
      x.attempts = 2 ∧ x.outcome = .unknown ∧
      Runs.run (exactStep ({} : Settings).adapter) ⟨5, ({} : Settings).breaker,
        ({} : Settings).adapter.start _ 5⟩ cutOffCall = some s ∧ s.clock ≤ 5 + 8 := by
  have hany : (sampleCall cutOffCall).any (fun y => y.2.pc.result?.isSome) = true := by
    decide +kernel
  have hexact : (Runs.run (exactStep ({} : Settings).adapter) ⟨5, ({} : Settings).breaker,
      ({} : Settings).adapter.start _ 5⟩ cutOffCall).isSome = true := by
    decide +kernel
  obtain ⟨⟨b, c⟩, hc, hreturned⟩ := (Option.any_eq_true _ _).mp hany
  obtain ⟨x, hpc⟩ := Option.isSome_iff_exists.mp hreturned
  have hpc := CallPc.result?_eq_some.mp hpc
  obtain ⟨s, hs⟩ := Option.isSome_iff_exists.mp hexact
  have hinner : ∀ r m, .answer r m ∈ cutOffCall → r.Settled := by
    intro r m hr
    simp only [cutOffCall, List.mem_cons, CallEvent.answer.injEq, reduceCtorEq,
      List.not_mem_nil, or_false, false_or] at hr
    obtain ⟨rfl, -⟩ := hr
    exact creditPoints_settled _
  have hkept := (credit_points_attempts_iff (by decide) hinner hc).mpr (.inl (by decide))
  obtain ⟨hattempts, -, hconcluded⟩ := hkept.concluded x hpc
  exact ⟨b, c, x, s, hc, hpc, hattempts, hconcluded.unknown.mpr (by decide), hs,
    (hkept.inTime (by decide +kernel) s hs).1⟩

/-- An attempt that is followed by another. -/
theorem Call.received_retried {ρ : Type} {op : Operation ρ} {adapter : ResilientPartnerAdapter}
    (b : CircuitBreaker) (c : Call ρ) {r : ρ} (m : Moments) {delay : Time}
    (hretry : op.retryable r = true) (hleft : c.attempts < adapter.retry.maxAttempts)
    (hdelay : adapter.retry.backoff c.attempts m.rand = .ok delay)
    (htime : m.weighedAt + delay < c.deadline) :
    c.received op adapter b r m = (b.recordAttempt (op.healthy r) m.recordedAt,
      { c.noted op r with pc := .entering }) := by
  have hgo : ¬ ((!op.retryable r) = true ∨
      adapter.retry.maxAttempts ≤ (c.noted op r).attempts) := by
    rw [hretry]
    exact not_or.mpr ⟨by simp, not_le.mpr hleft⟩
  have hdelay' : adapter.retry.backoff (c.noted op r).attempts m.rand = .ok delay := hdelay
  have htime' : ¬ (c.noted op r).deadline ≤ m.weighedAt + delay := not_le.mpr htime
  simp only [Call.received, if_neg hgo, hdelay', if_neg htime']

/-- A partner may be called 1026 times, and its circuit opens late. -/
def persistentSettings : Settings :=
  { partnerRetryMaxAttempts := 1026, circuitBreakerFailureThreshold := 2000 }

/-- As many attempts, each finding the port closed, with no jitter between them. -/
def failingCall (n : Nat) : List (CallEvent PartnerCreditResult) :=
  (List.replicate n [.send 5 5,
    .answer (HttpPartnerAdapter.creditPoints (.error .connectError)) ⟨5, 5, 0⟩]).flatten

theorem failingCall_succ (n : Nat) : failingCall (n + 1) = failingCall n ++ failingCall 1 := by
  simp [failingCall, List.replicate_succ']

/-- The call once `n` attempts found the port closed. -/
def persistentCall (n : Nat) : CircuitBreaker × Call PartnerCreditResult :=
  ({ persistentSettings.breaker with consecutiveFailures := n },
    { persistentSettings.adapter.start _ 5 with
      attempts := n
      result := if n = 0 then none
        else some (HttpPartnerAdapter.creditPoints (.error .connectError)) })

/-- One more attempt, as long as its delay can be weighed: the circuit stays closed. -/
theorem persistentCall_step {n : Nat} (hn : n < 1024) :
    Runs.run (callStep creditOperation persistentSettings.adapter) (persistentCall n)
      (failingCall 1) = some (persistentCall (n + 1)) := by
  have hsend : callStep creditOperation persistentSettings.adapter (persistentCall n)
      (.send 5 5) = some ((persistentCall n).1,
        { (persistentCall n).2 with attempts := n + 1, pc := .sending }) := by
    have hgate : (persistentCall n).1.allowRequest 5 = (true, (persistentCall n).1) := rfl
    have htime : ¬ (persistentCall n).2.deadline - 5 ≤ 0 := by
      show ¬ (5 + 8 : ℚ) - 5 ≤ 0
      norm_num
    have hpc : (persistentCall n).2.pc = .entering := rfl
    simp only [callStep, hpc, hgate, if_neg htime]
    rfl
  have hrecorded : (persistentCall n).1.recordAttempt false 5 = (persistentCall (n + 1)).1 := by
    have hclosed : ¬ (2000 : Int) ≤ (n + 1 : Nat) := by omega
    show (if (2000 : Int) ≤ (n + 1 : Nat) then _ else _) = _
    rw [if_neg hclosed]
    rfl
  have hretry : creditOperation.retryable
      (HttpPartnerAdapter.creditPoints (.error .connectError)) = true := rfl
  have hleft : ((n + 1 : Nat) : Int) < persistentSettings.adapter.retry.maxAttempts := by
    show ((n + 1 : Nat) : Int) < 1026
    omega
  have hdelay : persistentSettings.adapter.retry.backoff (n + 1) 0 = .ok 0 := by
    simp [RetryPolicy.backoff, floatPowerOfTwo, hn, Except.map]
  have htime : (5 + 0 : Time) < (persistentCall n).2.deadline := by
    show (5 + 0 : ℚ) < 5 + 8
    norm_num
  have hanswer := Call.received_retried (persistentCall n).1
    { (persistentCall n).2 with attempts := n + 1, pc := .sending } ⟨5, 5, 0⟩
    hretry hleft hdelay htime
  have hevents : failingCall 1 = [.send 5 5,
      .answer (HttpPartnerAdapter.creditPoints (.error .connectError)) ⟨5, 5, 0⟩] := rfl
  rw [hevents]
  refine Runs.run_cons_eq_some.mpr ⟨_, hsend, Runs.run_cons_eq_some.mpr ⟨_, ?_, rfl⟩⟩
  exact congrArg some (hanswer.trans (Prod.ext hrecorded rfl))

theorem persistentCall_run {n : Nat} (hn : n ≤ 1024) :
    Runs.run (callStep creditOperation persistentSettings.adapter)
      (persistentSettings.breaker, persistentSettings.adapter.start _ 5) (failingCall n) =
        some (persistentCall n) := by
  induction n with
  | zero => rfl
  | succ n ih =>
      rw [failingCall_succ]
      exact Runs.run_append.mpr ⟨_, ih (by omega), persistentCall_step (by omega)⟩
/-- The delay after the 1025th attempt raises: the call returns nothing. -/
theorem failingCall_raises :
    ∃ b c, Runs.run (callStep creditOperation persistentSettings.adapter)
        (persistentSettings.breaker, persistentSettings.adapter.start _ 5) (failingCall 1025) =
          some (b, c) ∧
      (∀ r m, .answer r m ∈ failingCall 1025 → r.Settled) ∧
      ¬ AttemptsKept persistentSettings.adapter persistentSettings.breaker 5 (failingCall 1025)
        c := by
  have hany : (Runs.run (callStep creditOperation persistentSettings.adapter)
      (persistentCall 1024) (failingCall 1)).any (fun x => x.2.pc.isRaised) = true := by
    decide +kernel
  obtain ⟨⟨b, c⟩, hlast, hraised⟩ := (Option.any_eq_true _ _).mp hany
  have hrun := Runs.run_append.mpr ⟨_, persistentCall_run le_rfl, hlast⟩
  rw [← failingCall_succ] at hrun
  have hevents : ∀ e ∈ failingCall 1025, e = .send 5 5 ∨
      e = .answer (HttpPartnerAdapter.creditPoints (.error .connectError)) ⟨5, 5, 0⟩ := by
    intro e he
    obtain ⟨l, hl, hel⟩ := List.mem_flatten.mp he
    rw [List.eq_of_mem_replicate hl] at hel
    simpa using hel
  refine ⟨b, c, hrun, ?_, fun hkept => ?_⟩
  · intro r m hr
    rcases hevents _ hr with heq | heq <;> cases heq
    exact creditPoints_settled _
  · rcases hevents _ (hkept.returns (CallPc.isRaised_iff.mp hraised)) with heq | heq <;> cases heq

end LoyaltyTransfer
