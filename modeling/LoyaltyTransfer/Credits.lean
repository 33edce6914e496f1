/-
# `LoyaltyTransfer.Credits` — whose transfer a credit is

`Composition` finds the credit of a COMPLETED transfer; here the other way round, the
transfer of every credit.  The saga returns points at once when a call ends NOT_SENT,
because then nothing was applied.  That is a statement about the other side of every
attempt, and over all interleavings:

    the call     entering        sending                  returned NOT_SENT
    its POSTs    all dropped     all dropped but one      all dropped

as long as no attempt was ambiguous.  Nobody else sends a POST of the transfer, before
or after.

**Proved here.**  As long as the simulator is not reset: every credit any partner holds
is that of one transfer, for its points and its member, whose points are in clearing or
settled under the credit's confirmation, unless the partner rejected the transfer or said
it did not have it; and a transfer reversed as never sent has no credit, now or ever
(`every_credit_accounted`).
-/
import LoyaltyTransfer.Audit
import LoyaltyTransfer.Composition
import LoyaltyTransfer.Timing

namespace LoyaltyTransfer

open Transaction

/-! ## What an attempt that was not sent rests on -/

/-- Only an attempt that may be repeated safely, or must be verified, is retried. -/
theorem creditPoints_retryable {x : Except TransportError HttpResponse}
    (h : (HttpPartnerAdapter.creditPoints x).retryable = true) :
    (HttpPartnerAdapter.creditPoints x).outcome = .notSent ∨
      (HttpPartnerAdapter.creditPoints x).outcome = .unknown := by
  cases x with
  | error e =>
      simp only [HttpPartnerAdapter.creditPoints]
      split
      · exact .inl rfl
      · exact .inr rfl
  | ok r =>
      simp only [HttpPartnerAdapter.creditPoints, classifyCreditResponse] at h ⊢
      split at h
      · rename_i hcode
        rw [if_pos hcode]
        cases hc : r.confirmationId with
        | none => exact .inr rfl
        | some c =>
            rw [hc] at h
            cases h
      · rename_i hcode
        rw [if_neg hcode]
        split at h
        · rename_i hthrottled
          rw [if_pos hthrottled]
          exact .inl rfl
        · rename_i hthrottled
          rw [if_neg hthrottled]
          split at h
          · cases h
          · rename_i hrejected
            rw [if_neg hrejected]
            exact .inr rfl

/-- NOT_SENT is a 429, or an error raised before a byte left. -/
theorem creditPoints_notSent {x : Except TransportError HttpResponse}
    (h : (HttpPartnerAdapter.creditPoints x).outcome = .notSent) :
    (∃ r, x = .ok r ∧ r.statusCode = 429) ∨ ∃ e, x = .error e ∧ e.notSent = true := by
  cases x with
  | error e =>
      simp only [HttpPartnerAdapter.creditPoints] at h
      split at h
      · rename_i he
        exact .inr ⟨e, rfl, he⟩
      · cases h
  | ok r =>
      refine .inl ⟨r, rfl, ?_⟩
      simp only [HttpPartnerAdapter.creditPoints, classifyCreditResponse] at h
      split at h
      · split at h <;> cases h
      · split at h
        · rename_i hcode
          exact hcode
        · split at h <;> cases h

/-- A call ends NOT_SENT only if none of its attempts was ambiguous. -/
theorem conclude_notSent {possiblyApplied : Bool} {n : Nat} {r : PartnerCreditResult}
    (h : (creditOperation.withAttempts n (creditOperation.conclude possiblyApplied r)).outcome =
      .notSent) : possiblyApplied = false ∧ r.outcome = .notSent := by
  simp only [creditOperation] at h
  split at h
  · cases h
  · rename_i hno
    refine ⟨?_, h⟩
    cases possiblyApplied with
    | false => rfl
    | true => exact absurd ⟨rfl, h⟩ hno

/-! ## The POSTs of one reference -/

/-- The partner has taken the request up, and does not turn it away for its number. -/
structure PostPc.TakenUp (pc : PostPc) : Prop where
  arrived : pc ≠ .inTransit
  kept : pc ≠ .dropped
  code : ∀ response, pc.response? = some response → response.statusCode ≠ 429

/-- The simulator has no limit on requests. -/
def Simulator.NeverThrottles (s : Simulator) : Prop :=
  ∀ post ∈ s.posts, ∀ response, post.pc.response? = some response → response.statusCode ≠ 429

/-- A step of the simulator, as the POSTs and the credits see it. -/
inductive PostMove (s : Simulator) : SimAction → Simulator → Prop
  | elsewhere {a : SimAction} {s' : Simulator} (hcredits : s'.credits = s.credits)
      (hposts : s'.posts = s.posts) : PostMove s a s'
  | posted {r : CreditRequest} :
      PostMove s (.post r) { s with posts := s.posts ++ [⟨r, .inTransit⟩] }
  | taken {a : SimAction} {n : Nat} {post : Post} {pc : PostPc} {credits : List Credit}
      (hpost : s.posts[n]? = some post) (hlive : post.pc ≠ .dropped) (hpc : pc.TakenUp)
      (hcredits : Recorded s post.request credits) :
      PostMove s a { s with credits, posts := s.posts.set n { post with pc } }
  | lost {n : Nat} {post : Post} (hpost : s.posts[n]? = some post) (hpc : post.pc = .inTransit) :
      PostMove s (.drop n) { s with posts := s.posts.set n { post with pc := .dropped } }

section

variable {s s' : Simulator} {r : CreditRequest} {mode : Mode} {stamp : Stamp} {rand : ℚ}
  {a : SimAction}

theorem takenUp_answered {response : HttpResponse} (h : response.statusCode ≠ 429) :
    (PostPc.answered response).TakenUp where
  arrived := by simp
  kept := by simp
  code := by
    intro x hx
    cases hx
    exact h

theorem takenUp_answerPc {response : HttpResponse} (h : response.statusCode ≠ 429) :
    (answerPc mode response).TakenUp := by
  have hcode : ∀ x, (answerPc mode response).response? = some x → x.statusCode ≠ 429 := by
    intro x hx
    rw [answerPc_response] at hx
    cases hx
    exact h
  refine ⟨?_, ?_, hcode⟩
  · simp only [answerPc]
    split <;> simp
  · simp only [answerPc]
    split <;> simp

theorem process_takenUp : (s.process mode r stamp).2.TakenUp := by
  simp only [Simulator.process]
  split
  · split
    · exact takenUp_answerPc (by simp [Credit.response])
    · exact takenUp_answered (by simp [failure])
  · split
    · exact takenUp_answered (by simp [failure])
    · exact takenUp_answerPc (by simp [Credit.response])

theorem infrastructureFailure_code {config : PartnerConfig} {response : HttpResponse}
    (h : infrastructureFailure config rand = some response) : response.statusCode ≠ 429 := by
  simp only [infrastructureFailure] at h
  split at h
  · cases h
    simp [failure]
  · cases h
    simp [failure]
  · split at h
    · cases h
      simp [failure]
    · cases h
  · cases h

theorem createCredit_takenUp : (s.createCredit r rand stamp).2.TakenUp := by
  simp only [Simulator.createCredit]
  split
  · split
    · rename_i response hfail
      exact takenUp_answered (infrastructureFailure_code hfail)
    · split
      · exact ⟨by simp, by simp, by rintro _ ⟨⟩⟩
      · exact ⟨by simp, by simp, by rintro _ ⟨⟩⟩
      · exact process_takenUp
  · exact takenUp_answered (by simp [unprocessable])

theorem simStep_postMove (hs : s.NeverThrottles) (h : simStep s a = some s') :
    PostMove s a s' := by
  cases a with
  | setConfig partnerCode config =>
      cases h
      exact .elsewhere rfl rfl
  | post request =>
      cases h
      exact .posted
  | deliver n rand stamp =>
      simp only [simStep] at h
      split at h
      · rename_i r hpost
        cases h
        exact .taken hpost (by simp) createCredit_takenUp createCredit_serves.recorded
      · cases h
  | wake n stamp =>
      simp only [simStep] at h
      split at h
      · rename_i r hpost
        cases h
        exact .taken hpost (by simp) (takenUp_answered (by simp [failure])) (.inl rfl)
      · rename_i r hpost
        cases h
        exact .taken hpost (by simp) process_takenUp process_serves.recorded
      · rename_i r response hpost
        cases h
        have hcode := hs _ (List.mem_of_getElem? hpost) response rfl
        exact .taken hpost (by simp) (takenUp_answered hcode) (.inl rfl)
      · cases h
  | drop n =>
      simp only [simStep] at h
      split at h
      · rename_i r hpost
        cases h
        exact .lost hpost rfl
      · cases h
  | get partnerCode reference =>
      cases h
      exact .elsewhere rfl rfl
  | deliverGet n rand =>
      simp only [simStep] at h
      split at h
      · cases h
        exact .elsewhere rfl rfl
      · cases h
  | dropGet n =>
      simp only [simStep] at h
      split at h
      · cases h
        exact .elsewhere rfl rfl
      · cases h

theorem Simulator.NeverThrottles.step (h : s.NeverThrottles) (hm : PostMove s a s') :
    s'.NeverThrottles := by
  intro post hp response hresponse
  cases hm with
  | elsewhere _ hposts =>
      rw [hposts] at hp
      exact h post hp response hresponse
  | posted =>
      rcases List.mem_append.mp hp with hp | hp
      · exact h post hp response hresponse
      · rw [List.mem_singleton.mp hp] at hresponse
        cases hresponse
  | taken _ _ hpc _ =>
      rcases List.mem_or_eq_of_mem_set hp with hp | rfl
      · exact h post hp response hresponse
      · exact hpc.code response hresponse
  | lost _ _ =>
      rcases List.mem_or_eq_of_mem_set hp with hp | rfl
      · exact h post hp response hresponse
      · cases hresponse

end

/-- The partner has no credit of the reference, and no POST of it will reach it. -/
structure Untouched (sim : Simulator) (reference : String) : Prop where
  credits : ∀ c ∈ sim.credits, c.reference ≠ reference
  posts : ∀ post ∈ sim.posts, post.request.reference = reference → post.pc = .dropped

/-- POST `n` is the only one of the reference that may reach the partner, or has. -/
structure UntouchedBut (sim : Simulator) (reference : String) (n : Nat) : Prop where
  sent : n < sim.posts.length
  posts : ∀ (m : Nat) post, sim.posts[m]? = some post → post.request.reference = reference →
    m = n ∨ post.pc = .dropped
  credits : ∀ post, sim.posts[n]? = some post → post.pc = .inTransit ∨ post.pc = .dropped →
    ∀ c ∈ sim.credits, c.reference ≠ reference

section

variable {s s' : Simulator} {r : CreditRequest} {a : SimAction} {reference : String} {n : Nat}
  {credits : List Credit}

/-- Serving a POST of another reference adds no credit of this one. -/
theorem Recorded.other (h : Recorded s r credits) (hne : r.reference ≠ reference)
    (hs : ∀ c ∈ s.credits, c.reference ≠ reference) : ∀ c ∈ credits, c.reference ≠ reference := by
  intro c hc
  rcases h with rfl | ⟨-, stamp, rfl⟩
  · exact hs c hc
  · rcases List.mem_append.mp hc with hc | hc
    · exact hs c hc
    · rw [List.mem_singleton.mp hc]
      exact hne

theorem Untouched.step (h : Untouched s reference) (hm : PostMove s a s')
    (hpost : ∀ r, a = .post r → r.reference ≠ reference) : Untouched s' reference := by
  cases hm with
  | elsewhere hcredits hposts =>
      refine ⟨?_, ?_⟩
      · rw [hcredits]
        exact h.credits
      · rw [hposts]
        exact h.posts
  | posted =>
      refine ⟨h.credits, ?_⟩
      intro post hp href
      rcases List.mem_append.mp hp with hp | hp
      · exact h.posts post hp href
      · rw [List.mem_singleton.mp hp] at href
        exact absurd href (hpost _ rfl)
  | taken hp hlive _ hrecorded =>
      have hne := fun href => hlive (h.posts _ (List.mem_of_getElem? hp) href)
      refine ⟨hrecorded.other hne h.credits, ?_⟩
      intro post hpost' href
      rcases List.mem_or_eq_of_mem_set hpost' with hpost' | rfl
      · exact h.posts post hpost' href
      · exact absurd href hne
  | lost hp _ =>
      refine ⟨h.credits, ?_⟩
      intro post hpost' href
      rcases List.mem_or_eq_of_mem_set hpost' with hpost' | rfl
      · exact h.posts post hpost' href
      · rfl

theorem UntouchedBut.step (h : UntouchedBut s reference n) (hm : PostMove s a s')
    (hpost : ∀ r, a = .post r → r.reference ≠ reference) : UntouchedBut s' reference n := by
  cases hm with
  | elsewhere hcredits hposts =>
      refine ⟨?_, ?_, ?_⟩
      · rw [hposts]
        exact h.sent
      · rw [hposts]
        exact h.posts
      · rw [hposts, hcredits]
        exact h.credits
  | @posted r =>
      refine ⟨?_, ?_, ?_⟩
      · rw [List.length_append]
        exact Nat.lt_add_right _ h.sent
      · intro m post hm href
        rcases Nat.lt_or_ge m s.posts.length with hlt | hge
        · rw [List.getElem?_append_left hlt] at hm
          exact h.posts m post hm href
        · rw [List.getElem?_append_right hge] at hm
          have hmem := List.mem_of_getElem? hm
          rw [List.mem_singleton.mp hmem] at href
          exact absurd href (hpost r rfl)
      · intro post hn hpc
        rw [List.getElem?_append_left h.sent] at hn
        exact h.credits post hn hpc
  | @taken _ k post pc credits hp hlive hpc hrecorded =>
      refine ⟨by rw [List.length_set]; exact h.sent, ?_, ?_⟩
      · intro m post' hm href
        by_cases hkm : k = m
        · subst hkm
          rw [List.getElem?_set_self (List.getElem?_eq_some_iff.mp hp).1] at hm
          cases hm
          rcases h.posts k post hp href with hkn | hdropped
          · exact .inl hkn
          · exact absurd hdropped hlive
        · rw [List.getElem?_set_ne hkm] at hm
          exact h.posts m post' hm href
      · intro post' hn hpc'
        by_cases hkn : k = n
        · subst hkn
          rw [List.getElem?_set_self h.sent] at hn
          cases hn
          rcases hpc' with hpc' | hpc'
          · exact absurd hpc' hpc.arrived
          · exact absurd hpc' hpc.kept
        · rw [List.getElem?_set_ne hkn] at hn
          refine hrecorded.other ?_ (h.credits post' hn hpc')
          intro href
          rcases h.posts k post hp href with heq | hdropped
          · exact hkn heq
          · exact hlive hdropped
  | @lost k post hp hpc =>
      refine ⟨by rw [List.length_set]; exact h.sent, ?_, ?_⟩
      · intro m post' hm href
        by_cases hkm : k = m
        · subst hkm
          rw [List.getElem?_set_self (List.getElem?_eq_some_iff.mp hp).1] at hm
          cases hm
          exact .inr rfl
        · rw [List.getElem?_set_ne hkm] at hm
          exact h.posts m post' hm href
      · intro post' hn hpc'
        by_cases hkn : k = n
        · subst hkn
          exact h.credits post hp (.inl hpc)
        · rw [List.getElem?_set_ne hkn] at hn
          exact h.credits post' hn hpc'

/-- The one exchange that might have reached the partner did not. -/
theorem UntouchedBut.untouched (h : UntouchedBut s reference n) {post : Post}
    (hpost : s.posts[n]? = some post) (hpc : post.pc = .dropped) : Untouched s reference where
  credits := h.credits post hpost (.inr hpc)
  posts := by
    intro post' hp href
    obtain ⟨m, hm⟩ := List.mem_iff_getElem?.mp hp
    rcases h.posts m post' hm href with rfl | hdropped
    · rw [hpost] at hm
      cases hm
      exact hpc
    · exact hdropped

/-- After the first POST of a reference it is the only one. -/
theorem Untouched.posted (h : Untouched s r.reference) (hstep : simStep s (.post r) = some s') :
    UntouchedBut s' r.reference s.posts.length := by
  cases hstep
  refine ⟨by simp, ?_, ?_⟩
  · intro m post hm href
    rcases Nat.lt_trichotomy m s.posts.length with hlt | heq | hgt
    · rw [List.getElem?_append_left hlt] at hm
      exact .inr (h.posts post (List.mem_of_getElem? hm) href)
    · exact .inl heq
    · rw [List.getElem?_eq_none (by simpa using hgt)] at hm
      cases hm
  · intro post _ _
    exact h.credits

end

/-! ## A call while nothing may have been applied -/

/-- As long as no attempt was ambiguous, no attempt that ended reached the partner. -/
structure Unspent (sim : Simulator) (reference : String)
    (session : Session PartnerCreditResult) : Prop where
  entering : session.call.pc = .entering → session.call.possiblyApplied = false →
    Untouched sim reference
  sending : session.call.pc = .sending → session.call.possiblyApplied = false →
    ∃ n, session.awaiting = some n ∧ UntouchedBut sim reference n
  returned : ∀ result, session.call.pc = .returned result → result.outcome = .notSent →
    Untouched sim reference

section

variable {sim sim' : Simulator} {reference : String}
  {session session' : Session PartnerCreditResult} {a : SimAction}

/-- A fresh session has sent nothing. -/
theorem unspent_fresh (h : Untouched sim reference) (breaker : CircuitBreaker)
    (adapter : ResilientPartnerAdapter) (now : Time) :
    Unspent sim reference ⟨breaker, adapter.start _ now, none⟩ where
  entering := fun _ _ => h
  sending := by rintro ⟨⟩
  returned := by rintro _ ⟨⟩

theorem Unspent.step (h : Unspent sim reference session) (hm : PostMove sim a sim')
    (hpost : ∀ r, a = .post r → r.reference ≠ reference) : Unspent sim' reference session where
  entering := fun hpc hclear => (h.entering hpc hclear).step hm hpost
  sending := by
    intro hpc hclear
    obtain ⟨n, hn, hbut⟩ := h.sending hpc hclear
    exact ⟨n, hn, hbut.step hm hpost⟩
  returned := fun result hpc hout => (h.returned result hpc hout).step hm hpost

/-- What the end of an attempt leaves: retried, or ended, it was not sent. -/
theorem Unspent.ended {c : Call PartnerCreditResult} {r : PartnerCreditResult}
    (h : Unspent sim reference session) (hc : session.call = c) (hpc : c.pc = .sending)
    (hr : r.outcome = .notSent → ∀ n, session.awaiting = some n → UntouchedBut sim reference n →
      Untouched sim reference) :
    (c.noted creditOperation r).possiblyApplied = false → r.outcome = .notSent →
      Untouched sim reference := by
  intro hclear hout
  subst hc
  have hclear' : session.call.possiblyApplied = false := by
    simp only [Call.noted, Bool.or_eq_false_iff] at hclear
    exact hclear.1
  obtain ⟨n, hn, hbut⟩ := h.sending hpc hclear'
  exact hr hout n hn hbut

/-- An event of the call that sends nothing. -/
theorem Unspent.next {adapter : ResilientPartnerAdapter} {e : CallEvent PartnerCreditResult}
    (h : Unspent sim reference session)
    (hnext : session.next creditOperation adapter e = some session')
    (hsend : ∀ gateAt checkedAt, e ≠ .send gateAt checkedAt)
    (hretried : ∀ r m, e = .answer r m → r.retryable = true →
      r.outcome = .notSent ∨ r.outcome = .unknown)
    (hanswer : ∀ r m, e = .answer r m → r.outcome = .notSent → ∀ n, session.awaiting = some n →
      UntouchedBut sim reference n → Untouched sim reference) :
    Unspent sim reference session' := by
  obtain ⟨hm, hawait⟩ := Session.next_some hnext
  obtain ⟨breaker', call', awaiting'⟩ := session'
  obtain rfl : awaiting' = session.awaiting := hawait
  have hends : ∀ {r m}, EndsAttempt creditOperation e r m → r.outcome = .notSent →
      ∀ n, session.awaiting = some n → UntouchedBut sim reference n →
        Untouched sim reference := by
    intro r m he hout
    cases he with
    | answer => exact hanswer r m rfl hout
    | cutOff => cases hout
  have hkinds : ∀ {r m}, EndsAttempt creditOperation e r m → r.retryable = true →
      r.outcome = .notSent ∨ r.outcome = .unknown := by
    intro r m he hretry
    cases he with
    | answer => exact hretried r m rfl hretry
    | cutOff => cases hretry
  cases hm with
  | refused hpc _ =>
      refine ⟨by rintro ⟨⟩, by rintro ⟨⟩, ?_⟩
      intro result hreturned hout
      cases hreturned
      exact h.entering hpc (conclude_notSent hout).1
  | late hpc _ _ =>
      refine ⟨by rintro ⟨⟩, by rintro ⟨⟩, ?_⟩
      intro result hreturned hout
      cases hreturned
      exact h.entering hpc (conclude_notSent hout).1
  | send => exact absurd rfl (hsend _ _)
  | ended hpc he _ =>
      refine ⟨by rintro ⟨⟩, by rintro ⟨⟩, ?_⟩
      intro result hreturned hout
      cases hreturned
      obtain ⟨hclear, hout⟩ := conclude_notSent hout
      exact h.ended rfl hpc (hends he) hclear hout
  | @retried _ r m _ hpc he hretry =>
      refine ⟨?_, by rintro ⟨⟩, by rintro _ ⟨⟩⟩
      intro _ hclear
      refine h.ended rfl hpc (hends he) hclear ?_
      rcases hkinds he hretry with hout | hout
      · exact hout
      · simp [Call.noted, creditOperation, hout] at hclear
  | overflowed => exact ⟨by rintro ⟨⟩, by rintro ⟨⟩, by rintro _ ⟨⟩⟩
  | raised => exact ⟨by rintro ⟨⟩, by rintro ⟨⟩, by rintro _ ⟨⟩⟩
  | others => exact ⟨h.entering, h.sending, h.returned⟩

/-- An attempt leaves: now its POST may reach the partner. -/
theorem Unspent.send {adapter : ResilientPartnerAdapter} {gateAt checkedAt : Time}
    {r : CreditRequest} (h : Unspent sim r.reference session)
    (hnext : session.next creditOperation adapter (.send gateAt checkedAt) = some session')
    (hpost : simStep sim (.post r) = some sim') :
    Unspent sim' r.reference { session' with awaiting := some sim.posts.length } := by
  obtain ⟨hm, -⟩ := Session.next_some hnext
  obtain ⟨breaker', call', awaiting'⟩ := session'
  cases hm with
  | send hpc _ _ =>
      refine ⟨by rintro ⟨⟩, ?_, by rintro _ ⟨⟩⟩
      intro _ hclear
      exact ⟨_, rfl, (h.entering hpc hclear).posted hpost⟩
  | ended _ he _ => cases he
  | retried _ he => cases he
  | overflowed _ he => cases he

end

/-! ## The invariant -/

/-- Reversed because the credit could not be sent. -/
def Transfer.Unavailable (t : Transfer) : Prop :=
  t.status = .reversed ∧ t.failureCode = some .partnerUnavailable

/-- The codes of a reversal. -/
def reversalCodes : List (Option TransferFailureCode) :=
  [some .partnerRejected, some .partnerUnavailable, some .partnerNotReceived,
    some .transferInterrupted]

structure Accounted (w : World) : Prop where
  throttles : w.sim.NeverThrottles
  called : ∀ post ∈ w.sim.posts, post.request.reference ∈ w.engine.store.called
  placed : ∀ (i : Nat) r id, w.engine.requests[i]? = some r → r.pc.sent = some id →
    (i, id) ∈ w.engine.store.creditCalls
  credits : ∀ (i : Nat) r record d startedAt session, w.engine.requests[i]? = some r →
    r.pc = .calling record d startedAt → w.credits i = some session →
      Unspent w.sim d.transferId session
  answered : ∀ (i : Nat) r record d result, w.engine.requests[i]? = some r →
    r.pc = .answered record d result → result.outcome = .notSent →
      Untouched w.sim d.transferId
  unavailable : ∀ t ∈ w.engine.store.db.transfers, t.Unavailable →
    t.id ∈ w.engine.store.called ∧ Untouched w.sim t.id ∧
      ∀ (i : Nat) r record d startedAt, w.engine.requests[i]? = some r →
        r.pc = .calling record d startedAt → d.transferId ≠ t.id
  codes : ∀ t ∈ w.engine.store.db.transfers, t.status = .reversed → t.failureCode ∈ reversalCodes

/-! ## Steps of the engine -/

section

variable {cfg : Config} {db₀ : Database} {s s' : State} {a : Action} {w : World}

theorem Step.creditCalls_mono (h : Step cfg s a s') {c : Nat × String}
    (hc : c ∈ s.store.creditCalls) : c ∈ s'.store.creditCalls := by
  rcases h.creditCalls with heq | ⟨_, _, _, _, _, -, -, -, heq⟩
  · rw [heq]
    exact hc
  · rw [heq]
    exact List.mem_append_left _ hc

theorem Accounted.placed_step (h : Accounted w) (hstep : Step cfg w.engine a s') {i : Nat}
    {r' : Request} {id : String} (hr' : s'.requests[i]? = some r') (hpc' : r'.pc.sent = some id) :
    (i, id) ∈ s'.store.creditCalls := by
  rcases hstep.story hr' with ⟨hr, -⟩ | ⟨-, -, rfl⟩ | ⟨-, hr, hm, rfl⟩
  · exact hstep.creditCalls_mono (h.placed i r' id hr hpc')
  · cases hpc'
  · rcases hm.sent hpc' with hpc | hcall
    · exact hstep.creditCalls_mono (h.placed i _ id hr hpc)
    · exact hcall

/-- One request calls the partner for a transfer. -/
theorem Accounted.sender_unique (h : Accounted w) (howned : Owned db₀ w.engine) {i j : Nat}
    {r r' : Request} {id : String} (hr : w.engine.requests[i]? = some r)
    (hr' : w.engine.requests[j]? = some r') (hpc : r.pc.sent = some id)
    (hpc' : r'.pc.sent = some id) : i = j := by
  have heq := List.inj_on_of_nodup_map howned.once (h.placed i r id hr hpc)
    (h.placed j r' id hr' hpc') rfl
  exact congrArg Prod.fst heq

/-- What was never called for is untouched. -/
theorem Accounted.uncalled (h : Accounted w) (hsim : w.sim.Sound) {id : String}
    (hid : id ∉ w.engine.store.called) : Untouched w.sim id where
  credits := by
    intro c hc href
    obtain ⟨post, hpost, hreq⟩ := hsim.made c hc
    have hcalled := h.called post hpost
    rw [hreq] at hcalled
    exact hid (href ▸ hcalled)
  posts := by
    intro post hpost href
    exact absurd (href ▸ h.called post hpost) hid

/-- The row that was saved. -/
theorem row_saved {db db₁ : Database} {t t' x : Transfer} {events : List TransferEvent}
    {moment : Option Time} (ht' : (saved db₁ x events moment).transfer? t.id = some t')
    (ht : db.transfer? t.id = some t) (hdb : db₁.transfers = db.transfers) (hid : x.id = t.id) :
    t' = x :=
  Option.some.inj (ht'.symm.trans (transfer?_saved_self hdb ht hid))

/-- A transfer is reversed as unavailable by the answer to its own call. -/
theorem RequestMove.unavailable {st st' : Store} {r : Request} {i : Nat} {now wall : Time}
    {record : Nat} {d : DebitedTransfer} {result : PartnerCreditResult} {pc : RequestPc}
    (hn : (st.db.accounts.map Account.id).Nodup) (hpc : r.pc = .answered record d result)
    (hm : RequestMove cfg i r st (.outcome now wall) st' pc) {t t' : Transfer}
    (ht : st.db.transfer? d.transferId = some t) (ht' : st'.db.transfer? d.transferId = some t')
    (hun : t'.Unavailable) :
    t.Unavailable ∨ result.outcome = .notSent ∧ pc = .created record d.transferId := by
  cases hm with
  | recorded hpc₁ hrun =>
      rw [hpc] at hpc₁
      cases hpc₁
      obtain ⟨x, hid, hx, hcases⟩ := applyPartnerOutcome_inv hrun
      rw [← hid] at ht ht'
      cases hx.symm.trans ht
      rcases hcases with ⟨-, -, heq⟩ | ⟨-, hcases⟩
      · rw [heq] at ht'
        cases ht.symm.trans ht'
        exact .inl hun
      · cases hcases with
        | settled _ _ hrun =>
            obtain ⟨accts, -, -, -, -, -, rfl⟩ := (settleTransfer_ok hn).mp hrun
            obtain rfl := row_saved ht' ht rfl rfl
            cases hun.1
        | rejected _ hrun =>
            obtain ⟨clearing, source, -, -, -, -, -, -, rfl⟩ := (reverseTransfer_ok hn).mp hrun
            obtain rfl := row_saved ht' ht rfl rfl
            cases hun.2
        | unavailable hout => exact .inr ⟨hout, rfl⟩
        | parked =>
            obtain rfl := row_saved ht' ht rfl rfl
            cases hun.1
  | recordRaised =>
      rw [ht] at ht'
      cases ht'
      exact .inl hun

/-- A status check never reverses as unavailable. -/
theorem ReconcileMove.unavailable {st st' : Store} {p : Reconcile} {now wall : Time}
    {pc : ReconcilePc} (hn : (st.db.accounts.map Account.id).Nodup)
    (hm : ReconcileMove cfg p st (.apply now wall) st' pc) {t t' : Transfer}
    (ht : st.db.transfer? p.transferId = some t) (ht' : st'.db.transfer? p.transferId = some t')
    (hun : t'.Unavailable) : t.Unavailable := by
  cases hm with
  | applied _ hrun =>
      obtain ⟨x, hid, hx, hcases⟩ := applyStatus_inv hrun
      rw [← hid] at ht ht'
      cases hx.symm.trans ht
      rcases hcases with ⟨-, -, heq⟩ | ⟨-, hcases⟩
      · rw [heq] at ht'
        cases ht.symm.trans ht'
        exact hun
      · cases hcases with
        | settled _ _ hrun =>
            obtain ⟨accts, -, -, -, -, -, rfl⟩ := (settleTransfer_ok hn).mp hrun
            obtain rfl := row_saved ht' ht rfl rfl
            cases hun.1
        | reversed _ _ hrun =>
            obtain ⟨clearing, source, -, -, -, -, -, -, rfl⟩ := (reverseTransfer_ok hn).mp hrun
            obtain rfl := row_saved ht' ht rfl rfl
            cases hun.2
        | early _ _ hrow =>
            obtain rfl := row_saved ht' ht rfl (by rw [hrow]; rfl)
            rw [hrow] at hun
            cases hun.1
        | counted =>
            obtain rfl := row_saved ht' ht rfl rfl
            cases hun.1
        | exhausted =>
            obtain rfl := row_saved ht' ht rfl rfl
            cases hun.1
  | _ =>
      rw [ht] at ht'
      cases ht'
      exact hun

/-- What a transfer reversed as unavailable was before the step. -/
theorem Step.unavailable (hn : (s.store.db.accounts.map Account.id).Nodup)
    (h : Step cfg s a s') {t t' : Transfer} (ht : s.store.db.transfer? t.id = some t)
    (ht' : s'.store.db.transfer? t.id = some t') (hun : t'.Unavailable) :
    t.Unavailable ∨ ∃ (i : Nat) (r r' : Request) (record : Nat) (d : DebitedTransfer)
      (result : PartnerCreditResult), s.requests[i]? = some r ∧
        r.pc = .answered record d result ∧ d.transferId = t.id ∧ result.outcome = .notSent ∧
        s'.requests[i]? = some r' ∧ r'.pc = .created record t.id := by
  obtain ⟨x, hx, -, hadv⟩ := (h.change hn).advance ht
  rw [ht'] at hx
  cases hx
  cases hadv with
  | stay hs hf _ => exact .inl ⟨hs ▸ hun.1, hf ▸ hun.2⟩
  | submitted => cases hun.1
  | parked _ hs' =>
      rw [hun.1] at hs'
      rcases hs' with hs' | hs' <;> cases hs'
  | settled => cases hun.1
  | reversed hbecause hrec =>
      have hsent : t.status ≠ .sourceDebited := by
        intro hs
        cases hbecause with
        | interrupted => cases hun.2
        | rejected hs' => rw [hs] at hs'; cases hs'
        | unavailable hs' => rw [hs] at hs'; cases hs'
        | notReceived hs' => simp [hs, verifiableStatuses] at hs'
      rcases hrec hsent with ⟨i, now, wall, r, record, d, result, rfl, hr, hpc, hid⟩ |
        ⟨k, now, wall, p, answer, rfl, hp, -, hid⟩
      · cases h with
        | @request _ r₁ _ st pc hr₁ hm =>
            rw [hr] at hr₁
            cases hr₁
            rw [← hid] at ht ht'
            rcases hm.unavailable hn hpc ht ht' hun with hold | ⟨hout, rfl⟩
            · exact .inl hold
            · refine .inr ⟨i, r, { r with pc := .created record d.transferId }, record, d, result,
                hr, hpc, hid, hout, ?_, ?_⟩
              · exact List.getElem?_set_self (List.getElem?_eq_some_iff.mp hr).1
              · rw [hid]
      · cases h with
        | reconcile hp₁ hm =>
            rw [hp] at hp₁
            cases hp₁
            rw [← hid] at ht ht'
            exact .inl (hm.unavailable hn ht ht' hun)

theorem Accounted.unavailable_step (hs : Seeded db₀) (hsound : Sound db₀ w.engine.store.db)
    (howned : Owned db₀ w.engine) (h : Accounted w) (hstep : Step cfg w.engine a s')
    {t' : Transfer} (ht' : t' ∈ s'.store.db.transfers) (hun : t'.Unavailable) :
    t'.id ∈ s'.store.called ∧ Untouched w.sim t'.id ∧
      ∀ (i : Nat) r record d startedAt, s'.requests[i]? = some r →
        r.pc = .calling record d startedAt → d.transferId ≠ t'.id := by
  have hn := hsound.accountIds hs
  have hchange := hstep.change hn
  have hsound' := hsound.change hs hchange
  -- a call under way in the next state was under way, or has just started
  have hcalling : ∀ (i : Nat) r record d startedAt, s'.requests[i]? = some r →
      r.pc = .calling record d startedAt → d.transferId ∈ w.engine.store.called →
      ∃ r₀, w.engine.requests[i]? = some r₀ ∧ r₀.pc = .calling record d startedAt := by
    intro i r' record d startedAt hr' hpc hcalled
    rcases hstep.story hr' with ⟨hr, -⟩ | ⟨-, -, rfl⟩ | ⟨-, hr, hm, rfl⟩
    · exact ⟨r', hr, hpc⟩
    · cases hpc
    · rcases (hm.calling hpc).2 with hold | ⟨-, hsub⟩
      · exact ⟨_, hr, hold⟩
      · exact absurd hcalled (howned.unsent_transfer hr (by rw [hsub]; rfl)).1
  by_cases hold : ∃ t ∈ w.engine.store.db.transfers, t.id = t'.id
  · obtain ⟨t, ht, hid⟩ := hold
    rw [← hid]
    have hrow' := Table.lookup_of_mem hsound'.transferIds ht'
    rw [← hid] at hrow'
    rcases hstep.unavailable hn (Table.lookup_of_mem hsound.transferIds ht) hrow' hun with
      hunavailable | ⟨i, r, r', record, d, result, hr, hpc, hd, hout, hr', hpc'⟩
    · obtain ⟨hcalled, huntouched, hnone⟩ := h.unavailable t ht hunavailable
      refine ⟨hstep.called_mono hcalled, huntouched, ?_⟩
      intro j x record d startedAt hx hxpc heq
      obtain ⟨x₀, hx₀, hxpc₀⟩ := hcalling j x record d startedAt hx hxpc (heq ▸ hcalled)
      exact hnone j x₀ record d startedAt hx₀ hxpc₀ heq
    · have hplaced := h.placed i r t.id hr (by rw [hpc]; exact congrArg some hd)
      have hcalled : t.id ∈ w.engine.store.called := List.mem_map.mpr ⟨_, hplaced, rfl⟩
      refine ⟨hstep.called_mono hcalled, hd ▸ h.answered i r record d result hr hpc hout, ?_⟩
      intro j x record' d' startedAt hx hxpc heq
      obtain ⟨x₀, hx₀, hxpc₀⟩ := hcalling j x record' d' startedAt hx hxpc (heq ▸ hcalled)
      obtain rfl : j = i := h.sender_unique howned hx₀ hr (by rw [hxpc₀]; exact congrArg some heq)
        (by rw [hpc]; exact congrArg some hd)
      rw [hx] at hr'
      cases hr'
      rw [hxpc] at hpc'
      cases hpc'
  · obtain ⟨-, _, _, _, hopening⟩ := hchange.opened_of_new ht' fun y hy heq => hold ⟨y, hy, heq⟩
    have hreversed := hun.1
    rw [hopening.status] at hreversed
    cases hreversed

theorem ReversedBecause.code_mem {late : Transfer → Prop} {t : Transfer}
    {code : TransferFailureCode} (h : ReversedBecause late t code) :
    some code ∈ reversalCodes := by
  cases h <;> simp [reversalCodes]

theorem Accounted.codes_step (hs : Seeded db₀) (hsound : Sound db₀ w.engine.store.db)
    (h : Accounted w) (hstep : Step cfg w.engine a s') {t' : Transfer}
    (ht' : t' ∈ s'.store.db.transfers) (hreversed : t'.status = .reversed) :
    t'.failureCode ∈ reversalCodes := by
  have hchange := hstep.change (hsound.accountIds hs)
  by_cases hold : ∃ t ∈ w.engine.store.db.transfers, t.id = t'.id
  · obtain ⟨t, ht, hid⟩ := hold
    obtain ⟨y, hy, -, hadv⟩ := hchange.advance (Table.lookup_of_mem hsound.transferIds ht)
    obtain rfl : y = t' := Table.eq_of_key_eq (hsound.change hs hchange).transferIds
      (Table.lookup_mem hy) ht' ((Table.lookup_key hy).trans hid)
    cases hadv with
    | stay hst hf _ =>
        rw [hf]
        exact h.codes t ht (hst ▸ hreversed)
    | submitted => cases hreversed
    | parked _ hs' =>
        rw [hreversed] at hs'
        rcases hs' with hs' | hs' <;> cases hs'
    | settled => cases hreversed
    | reversed hbecause _ => exact hbecause.code_mem
  · obtain ⟨-, _, _, _, hopening⟩ := hchange.opened_of_new ht' fun y hy heq => hold ⟨y, hy, heq⟩
    rw [hopening.status] at hreversed
    cases hreversed

/-- A step of the engine keeps the invariant when a call starts with a fresh session, and
ends NOT_SENT only with nothing applied. -/
theorem Accounted.engine (hs : Seeded db₀) (hsound : Sound db₀ w.engine.store.db)
    (howned : Owned db₀ w.engine) (hsim : w.sim.Sound) (h : Accounted w)
    (hstep : Step cfg w.engine a s')
    (hcall : ∀ i now session, a = .request i (.call now) → w.credits i = some session →
      ∀ reference, Untouched w.sim reference → Unspent w.sim reference session)
    (hanswer : ∀ i result r record d startedAt, a = .request i (.answer result) →
      w.engine.requests[i]? = some r → r.pc = .calling record d startedAt →
      result.outcome = .notSent → Untouched w.sim d.transferId) :
    Accounted { w with engine := s' } where
  throttles := h.throttles
  called := fun post hpost => hstep.called_mono (h.called post hpost)
  placed := fun _ _ _ hr' hpc' => h.placed_step hstep hr' hpc'
  credits := by
    intro i r' record d startedAt session hr' hpc' hsession
    rcases hstep.story hr' with ⟨hr, -⟩ | ⟨-, -, rfl⟩ | ⟨rfl, hr, hm, rfl⟩
    · exact h.credits i r' record d startedAt session hr hpc' hsession
    · cases hpc'
    · rcases (hm.calling hpc').2 with hcalling | ⟨rfl, hsub⟩
      · exact h.credits i _ record d startedAt session hr hcalling hsession
      · refine hcall i startedAt session rfl hsession _ (h.uncalled hsim ?_)
        exact (howned.unsent_transfer hr (by rw [hsub]; rfl)).1
  answered := by
    intro i r' record d result hr' hpc' hout
    rcases hstep.story hr' with ⟨hr, -⟩ | ⟨-, -, rfl⟩ | ⟨rfl, hr, hm, rfl⟩
    · exact h.answered i r' record d result hr hpc' hout
    · cases hpc'
    · obtain ⟨rfl, startedAt, hcalling⟩ := hm.answered hpc'
      exact hanswer i result _ record d startedAt rfl hr hcalling hout
  unavailable := fun _ ht' hun => h.unavailable_step hs hsound howned hstep ht' hun
  codes := fun _ ht' hreversed => h.codes_step hs hsound hstep ht' hreversed

end

/-! ## Steps of the simulator and of the sessions -/

section

variable {w : World} {sim' : Simulator} {a : SimAction}

/-- A step of the simulator keeps the invariant when it is no new POST. -/
theorem Accounted.partner (h : Accounted w) (hstep : simStep w.sim a = some sim')
    (hserver : ∀ r, a ≠ .post r) : Accounted { w with sim := sim' } where
  throttles := h.throttles.step (simStep_postMove h.throttles hstep)
  called := by
    intro post hp
    rcases (simStep_move hstep).post_cases hp with ⟨post₀, hpost₀, hreq⟩ | hpost
    · rw [← hreq]
      exact h.called post₀ hpost₀
    · exact absurd hpost (hserver _)
  placed := h.placed
  credits := fun i r record d startedAt session hr hpc hsession =>
    (h.credits i r record d startedAt session hr hpc hsession).step
      (simStep_postMove h.throttles hstep) fun r hpost => absurd hpost (hserver r)
  answered := fun i r record d result hr hpc hout =>
    (h.answered i r record d result hr hpc hout).step (simStep_postMove h.throttles hstep)
      fun r hpost => absurd hpost (hserver r)
  unavailable := by
    intro t ht hun
    obtain ⟨hcalled, huntouched, hnone⟩ := h.unavailable t ht hun
    exact ⟨hcalled, huntouched.step (simStep_postMove h.throttles hstep)
      fun r hpost => absurd hpost (hserver r), hnone⟩
  codes := h.codes

theorem Accounted.setCredit (h : Accounted w) {i : Nat} {session : Session PartnerCreditResult}
    (hunspent : ∀ r record d startedAt, w.engine.requests[i]? = some r →
      r.pc = .calling record d startedAt → Unspent w.sim d.transferId session) :
    Accounted (w.setCredit i session) := by
  refine { h with credits := ?_ }
  intro j r record d startedAt session' hr hpc hsession
  have hsession : Function.update w.credits i (some session) j = some session' := hsession
  by_cases hij : j = i
  · subst hij
    rw [Function.update_self] at hsession
    cases hsession
    exact hunspent r record d startedAt hr hpc
  · rw [Function.update_of_ne hij] at hsession
    exact h.credits j r record d startedAt session' hr hpc hsession

theorem Accounted.setStatus (h : Accounted w) (k : Nat) (session : Session PartnerStatusResult) :
    Accounted (w.setStatus k session) :=
  { h with }

theorem Accounted.abandon (h : Accounted w) {e : TransportError}
    (ha : w.sim.abandon e a = some sim') (hserver : ∀ r, a ≠ .post r) :
    Accounted { w with sim := sim' } := by
  simp only [Simulator.abandon] at ha
  split at ha
  · exact h.partner ha hserver
  · cases ha
    exact h

/-- A failure that says the request never left has taken its POST with it. -/
theorem UntouchedBut.abandoned {sim : Simulator} {reference : String} {n : Nat}
    {e : TransportError} (he : e.notSent = true) (hsim : sim.abandon e (.drop n) = some sim')
    (h : UntouchedBut sim' reference n) : Untouched sim' reference := by
  simp only [Simulator.abandon, if_pos he, simStep] at hsim
  split at hsim
  · rename_i r hpost
    cases hsim
    exact h.untouched (List.getElem?_set_self (List.getElem?_eq_some_iff.mp hpost).1) rfl
  · cases hsim

end

/-! ## Steps of the composition -/

section

variable {cfg : Config} {retry : RetryPolicy} {db₀ : Database} {w w' : World}

/-- An event of a session that sends nothing and has no answer. -/
theorem Accounted.creditEvent (h : Accounted w) {i : Nat} {e : CallEvent PartnerCreditResult}
    {session session' : Session PartnerCreditResult} (hsession : w.credits i = some session)
    (he : e.isLocal = true)
    (hnext : session.next creditOperation (cfg.adapter retry) e = some session') :
    Accounted (w.setCredit i session') := by
  refine h.setCredit ?_
  intro r record d startedAt hr hpc
  refine (h.credits i r record d startedAt session hr hpc hsession).next hnext ?_ ?_ ?_
  · rintro gateAt checkedAt rfl
    cases he
  · rintro x m rfl
    cases he
  · rintro x m rfl
    cases he

/-- The answer of an exchange, or its failure, reaches the session. -/
theorem Accounted.receiveCredit (h : Accounted w) {i n : Nat} {m : Moments}
    {session session' : Session PartnerCreditResult} {x : Except TransportError HttpResponse}
    (hsession : w.credits i = some session) (hn : session.awaiting = some n)
    (hnext : session.next creditOperation (cfg.adapter retry)
      (.answer (HttpPartnerAdapter.creditPoints x) m) = some session')
    (hunsent : (HttpPartnerAdapter.creditPoints x).outcome = .notSent → ∀ reference,
      UntouchedBut w.sim reference n → Untouched w.sim reference) :
    Accounted (w.setCredit i session') := by
  refine h.setCredit ?_
  intro r record d startedAt hr hpc
  refine (h.credits i r record d startedAt session hr hpc hsession).next hnext ?_ ?_ ?_
  · intro gateAt checkedAt heq
    cases heq
  · intro result m' heq hretry
    cases heq
    exact creditPoints_retryable hretry
  · intro result m' heq hout n' hn' hbut
    cases heq
    obtain rfl : n' = n := Option.some.inj (hn'.symm.trans hn)
    exact hunsent hout _ hbut

/-- A call starts with its session. -/
theorem Accounted.enterCredit (hs : Seeded db₀) (hsound : Sound db₀ w.engine.store.db)
    (howned : Owned db₀ w.engine) (hsim : w.sim.Sound) (h : Accounted w) {i : Nat} {now : Time}
    {breaker : CircuitBreaker} {s' : State}
    (hstep : Step cfg w.engine (.request i (.call now)) s') :
    Accounted ({ w with engine := s' }.setCredit i
      ⟨breaker, (cfg.adapter retry).start _ now, none⟩) := by
  -- the request is not calling yet, so its old session does not matter
  have hset : Accounted (w.setCredit i ⟨breaker, (cfg.adapter retry).start _ now, none⟩) := by
    refine h.setCredit ?_
    intro r record d startedAt hr hpc
    cases hstep with
    | request hr₁ hm =>
        rw [hr] at hr₁
        cases hr₁
        cases hm with
        | call hsub =>
            rw [hpc] at hsub
            cases hsub
  refine Accounted.engine (w := w.setCredit i _) hs hsound howned hsim hset hstep ?_ ?_
  · intro j now' session' heq hsession reference huntouched
    cases heq
    have hsession : Function.update w.credits i
        (some ⟨breaker, (cfg.adapter retry).start _ now, none⟩) i = some session' := hsession
    rw [Function.update_self] at hsession
    cases hsession
    exact unspent_fresh huntouched breaker _ now
  · intro j result r record d startedAt heq
    cases heq

/-- An attempt leaves as a POST of a transfer that nobody else sends. -/
theorem Accounted.sendCredit (hs : Seeded db₀) (hsound : Sound db₀ w.engine.store.db)
    (howned : Owned db₀ w.engine) (hsim : w.sim.Sound) (h : Accounted w) {i : Nat}
    {gateAt checkedAt : Time} {session session' : Session PartnerCreditResult} {r : Request}
    {record : Nat} {d : DebitedTransfer} {startedAt : Time} {s' : State} {sim' : Simulator}
    (hsession : w.credits i = some session) (hr : w.engine.requests[i]? = some r)
    (hpc : r.pc = .calling record d startedAt)
    (hstep : Step cfg w.engine (.request i (.attempt checkedAt)) s')
    (hnext : session.next creditOperation (cfg.adapter retry) (.send gateAt checkedAt) =
      some session')
    (hpost : simStep w.sim (.post d.creditRequest) = some sim') :
    Accounted ({ w with engine := s', sim := sim' }.setCredit i
      { session' with awaiting := some w.sim.posts.length }) := by
  have hm := simStep_postMove h.throttles hpost
  have hsent : r.pc.sent = some d.transferId := by rw [hpc]; rfl
  have hother : ∀ {j : Nat} {x : Request} {id : String}, w.engine.requests[j]? = some x →
      x.pc.sent = some id → j ≠ i → ∀ q, SimAction.post d.creditRequest = .post q →
        q.reference ≠ id := by
    intro j x id hx hxpc hne q heq href
    cases heq
    have href : d.transferId = id := href
    exact hne (h.sender_unique howned hx hr hxpc (href ▸ hsent))
  have hunspent := (h.credits i r record d startedAt session hr hpc hsession).send
    (r := d.creditRequest) hnext hpost
  have hpartner : Accounted ({ w with sim := sim' }.setCredit i
      { session' with awaiting := some w.sim.posts.length }) := by
    refine ⟨h.throttles.step hm, ?_, h.placed, ?_, ?_, ?_, h.codes⟩
    · intro post hp
      rcases (simStep_move hpost).post_cases hp with ⟨post₀, hpost₀, hreq⟩ | heq
      · rw [← hreq]
        exact h.called post₀ hpost₀
      · have hreq : d.creditRequest = post.request := by injection heq
        rw [← hreq]
        exact List.mem_map.mpr ⟨_, h.placed i r _ hr hsent, rfl⟩
    · intro j x record' d' startedAt' session₁ hx hxpc hsession₁
      have hsession₁ : Function.update w.credits i
        (some { session' with awaiting := some w.sim.posts.length }) j = some session₁ := hsession₁
      by_cases hji : j = i
      · subst hji
        rw [Function.update_self] at hsession₁
        cases hsession₁
        cases hr.symm.trans hx
        cases hpc.symm.trans hxpc
        exact hunspent
      · rw [Function.update_of_ne hji] at hsession₁
        exact (h.credits j x record' d' startedAt' session₁ hx hxpc hsession₁).step hm
          (hother hx (by rw [hxpc]; rfl) hji)
    · intro j x record' d' result hx hxpc hout
      refine (h.answered j x record' d' result hx hxpc hout).step hm
        (hother hx (by rw [hxpc]; rfl) ?_)
      rintro rfl
      cases hr.symm.trans hx
      cases hpc.symm.trans hxpc
    · intro t ht hun
      obtain ⟨hcalled, huntouched, hnone⟩ := h.unavailable t ht hun
      refine ⟨hcalled, huntouched.step hm ?_, hnone⟩
      intro q heq
      cases heq
      exact hnone i r record d startedAt hr hpc
  refine Accounted.engine (w := { w with sim := sim' }.setCredit i _) hs hsound howned
    (hsim.step (simStep_move hpost)) hpartner hstep ?_ ?_
  · intro j now session₁ heq
    cases heq
  · intro j result x record' d' startedAt' heq
    cases heq

theorem Accounted.step (hs : Seeded db₀) (hsound : Sound db₀ w.engine.store.db)
    (howned : Owned db₀ w.engine) (hsim : w.sim.Sound) (h : Accounted w) {a : WorldAction}
    (hstep : worldStep cfg retry w a = some w') : Accounted w' := by
  cases a <;>
    simp only [worldStep, Option.bind_eq_bind, Option.bind_eq_some_iff, Option.pure_def,
      Option.some.injEq, Option.ite_none_right_eq_some] at hstep
  case engine a =>
    obtain ⟨ha, s', hs', rfl⟩ := hstep
    refine h.engine hs hsound howned hsim (step_inv hs') ?_ ?_
    · rintro i now session rfl
      cases ha
    · rintro i result r record d startedAt rfl
      cases ha
  case partner a =>
    obtain ⟨ha, sim', hsim', rfl⟩ := hstep
    refine h.partner hsim' ?_
    rintro r rfl
    cases ha
  case enterCredit i now breaker =>
    obtain ⟨s', hs', rfl⟩ := hstep
    exact h.enterCredit hs hsound howned hsim (step_inv hs')
  case creditEvent i e =>
    obtain ⟨session, hsession, he, session', hnext, rfl⟩ := hstep
    exact h.creditEvent hsession he hnext
  case sendCredit i gateAt checkedAt =>
    obtain ⟨session, hsession, r, hr, hstep⟩ := hstep
    split at hstep
    · rename_i record d startedAt hpc
      simp only [Option.bind_eq_some_iff, Option.some.injEq] at hstep
      obtain ⟨s', hs', session', hnext, sim', hpost, rfl⟩ := hstep
      exact h.sendCredit hs hsound howned hsim hsession hr hpc (step_inv hs') hnext hpost
    · cases hstep
  case receiveCredit i error m =>
    obtain ⟨session, hsession, n, hn, post, hpost, hstep⟩ := hstep
    split at hstep
    · rename_i response hpc
      simp only [Option.bind_eq_some_iff, Option.some.injEq] at hstep
      obtain ⟨session', hnext, rfl⟩ := hstep
      refine h.receiveCredit hsession hn hnext ?_
      intro hout
      -- the partner never answers 429
      rcases creditPoints_notSent hout with ⟨r, heq, hcode⟩ | ⟨e, heq, -⟩
      · cases heq
        have hno := h.throttles post (List.mem_of_getElem? hpost) response (by rw [hpc]; rfl)
        exact absurd hcode hno
      · cases heq
    · rename_i e hpc
      simp only [Option.bind_eq_some_iff, Option.some.injEq] at hstep
      obtain ⟨sim', hsim', session', hnext, rfl⟩ := hstep
      have habandon := h.abandon hsim' fun r heq => by cases heq
      refine habandon.receiveCredit hsession hn hnext ?_
      intro hout reference hbut
      rcases creditPoints_notSent hout with ⟨r, heq, -⟩ | ⟨e', heq, he⟩
      · cases heq
      · cases heq
        exact hbut.abandoned he hsim'
    · cases hstep
  case leaveCredit i =>
    obtain ⟨session, hsession, hstep⟩ := hstep
    split at hstep
    · rename_i result hpc
      simp only [Option.bind_eq_some_iff, Option.some.injEq] at hstep
      obtain ⟨s', hs', rfl⟩ := hstep
      refine h.engine hs hsound howned hsim (step_inv hs') ?_ ?_
      · intro j now session₁ heq
        cases heq
      · intro j result' r record d startedAt heq hr hcalling hout
        cases heq
        exact (h.credits i r record d startedAt session hr hcalling hsession).returned _ hpc hout
    · cases hstep
  case enterStatus k now breaker =>
    split at hstep
    · cases hstep
      exact h.setStatus k _
    · cases hstep
  case statusEvent k e =>
    obtain ⟨session, -, -, session', -, rfl⟩ := hstep
    exact h.setStatus k session'
  case sendStatus k gateAt checkedAt =>
    obtain ⟨session, -, p, -, hstep⟩ := hstep
    split at hstep
    · simp only [Option.bind_eq_some_iff, Option.some.injEq] at hstep
      obtain ⟨session', -, sim', hget, rfl⟩ := hstep
      exact (h.partner hget fun r heq => by cases heq).setStatus k _
    · cases hstep
  case receiveStatus k error m =>
    obtain ⟨session, -, n, -, g, -, hstep⟩ := hstep
    split at hstep
    · simp only [Option.bind_eq_some_iff, Option.some.injEq] at hstep
      obtain ⟨session', -, rfl⟩ := hstep
      exact h.setStatus k session'
    · simp only [Option.bind_eq_some_iff, Option.some.injEq] at hstep
      obtain ⟨sim', hsim', session', -, rfl⟩ := hstep
      exact (h.abandon hsim' fun r heq => by cases heq).setStatus k session'
    · cases hstep
  case leaveStatus k =>
    obtain ⟨session, -, hstep⟩ := hstep
    split at hstep
    · simp only [Option.bind_eq_some_iff, Option.some.injEq] at hstep
      obtain ⟨s', hs', rfl⟩ := hstep
      refine h.engine hs hsound howned hsim (step_inv hs') ?_ ?_
      · intro j now session₁ heq
        cases heq
      · intro j result' r record d startedAt heq
        cases heq
    · cases hstep

end

/-! ## Every credit -/

/-- The service gave the points back on its own knowledge that nothing was sent. -/
def Transfer.ReturnedUnsent (t : Transfer) : Prop :=
  t.status = .reversed ∧
    (t.failureCode = some .transferInterrupted ∨ t.failureCode = some .partnerUnavailable)

/-- What has become of the transfer of a credit. -/
inductive Transfer.Backs (t : Transfer) (c : Credit) : Prop
  | held (hs : t.status ∈ verifiableStatuses ∨ t.status = .manualReview)
  | completed (hs : t.status = .completed)
      (hconf : t.partnerConfirmationId = some c.confirmationId)
  | reversed (hs : t.status = .reversed)
      (hcode : t.failureCode = some .partnerRejected ∨ t.failureCode = some .partnerNotReceived)

section

variable {cfg : Config} {retry : RetryPolicy} {w₀ w w' : World} {as bs : List WorldAction}

theorem World.Initial.accounted (h : w₀.Initial) : Accounted w₀ where
  throttles := by simp [Simulator.NeverThrottles, h.noPosts]
  called := by simp [h.noPosts]
  placed := by simp [h.engine.requests]
  credits := by simp [h.creditSessions]
  answered := by simp [h.engine.requests]
  unavailable := by simp [h.engine.seeded.noTransfers]
  codes := by simp [h.engine.seeded.noTransfers]

/-- The four invariants hold in every reachable state. -/
theorem run_accounted (h₀ : w₀.Initial) (h : Runs.run (worldStep cfg retry) w₀ as = some w) :
    (Sound w₀.engine.store.db w.engine.store.db ∧ Owned w₀.engine.store.db w.engine ∧
      Honest w₀.engine.store.db w) ∧ Accounted w := by
  have hs := h₀.engine.seeded
  refine Runs.run_invariant (I := fun w => (Sound w₀.engine.store.db w.engine.store.db ∧
    Owned w₀.engine.store.db w.engine ∧ Honest w₀.engine.store.db w) ∧ Accounted w) ?_
    ⟨⟨hs.sound, h₀.engine.owned, h₀.honest⟩, h₀.accounted⟩ h
  rintro w a w' ⟨⟨hsound, howned, hhonest⟩, haccounted⟩ hstep
  have haccounted' := haccounted.step hs hsound howned hhonest.sim hstep
  have hm := worldStep_move hstep
  have hhonest' := hhonest.step hs hsound howned hm
  refine ⟨?_, haccounted'⟩
  rcases hm.engine_step with heq | ⟨b, hb⟩
  · rw [heq]
    exact ⟨hsound, howned, hhonest'⟩
  · exact ⟨hsound.change hs (hb.change (hsound.accountIds hs)), howned.step hs hsound hb, hhonest'⟩

/-- What stands behind the credit of a transfer. -/
theorem Accounted.backs (h : Accounted w) {db₀ : Database}
    (hsound : Sound db₀ w.engine.store.db) (howned : Owned db₀ w.engine)
    (hhonest : Honest db₀ w) {t : Transfer} (ht : t ∈ w.engine.store.db.transfers) {c : Credit}
    (hc : c ∈ w.sim.credits) (href : c.reference = t.id)
    (hpartner : ∃ p, db₀.program? t.destinationProgramId = some p ∧
      p.partnerCode = c.partnerCode) : t.Backs c := by
  -- a POST made the credit, so the partner was called
  obtain ⟨post, hpost, hreq⟩ := hhonest.sim.made c hc
  have hcalled : t.id ∈ w.engine.store.called := by
    have hin := h.called post hpost
    rw [hreq] at hin
    exact href ▸ hin
  obtain ⟨call, hcall, hcallId⟩ := List.mem_map.mp hcalled
  obtain ⟨-, _, x, -, hx, -, hpast⟩ := howned.calls call hcall
  rw [hcallId] at hx
  cases hx.symm.trans (Table.lookup_of_mem hsound.transferIds ht)
  have hreach := (hsound.rows t ht).status
  cases hst : t.status with
  | pending => exact absurd hst hreach
  | sourceDebited => exact absurd hst hpast.1
  | partnerSubmitted => exact .held (.inl (by simp [hst, verifiableStatuses]))
  | pendingVerification => exact .held (.inl (by simp [hst, verifiableStatuses]))
  | manualReview => exact .held (.inr hst)
  | completed =>
      obtain ⟨p, confirmationId, hp, hconf, c', hc', hkey, hid⟩ := hhonest.completed t ht hst
      obtain ⟨p', hp', hcode⟩ := hpartner
      cases hp.symm.trans hp'
      have hsame : c' = c := by
        refine Table.eq_of_key_eq hhonest.sim.unique hc' hc ?_
        rw [hkey, ← href, hcode]
        rfl
      exact .completed hst (by rw [hconf, ← hid, hsame])
  | reversed =>
      have hcodes := h.codes t ht hst
      simp only [reversalCodes, List.mem_cons, List.not_mem_nil, or_false] at hcodes
      rcases hcodes with hcode | hcode | hcode | hcode
      · exact .reversed hst (.inl hcode)
      · obtain ⟨-, huntouched, -⟩ := h.unavailable t ht ⟨hst, hcode⟩
        exact absurd href (huntouched.credits c hc)
      · exact .reversed hst (.inr hcode)
      · exact absurd ⟨hst, hcode⟩ hpast.2

/-- A transfer returned unsent stays so. -/
theorem run_returnedUnsent (h₀ : w₀.Initial) (h : Runs.run (worldStep cfg retry) w₀ as = some w)
    (h' : Runs.run (worldStep cfg retry) w bs = some w') {t : Transfer}
    (ht : w.engine.store.db.transfer? t.id = some t) (hun : t.ReturnedUnsent) :
    ∃ t', w'.engine.store.db.transfer? t.id = some t' ∧ t'.ReturnedUnsent := by
  have hs := h₀.engine.seeded
  have hsound := (run_accounted h₀ h).1.1
  have hI := Runs.run_invariant
    (I := fun x : World => Sound w₀.engine.store.db x.engine.store.db ∧
      ∃ t', x.engine.store.db.transfer? t.id = some t' ∧ t'.ReturnedUnsent)
    (fun x a x' hx hstep => ?_) ⟨hsound, t, ht, hun⟩ h'
  · exact hI.2
  obtain ⟨hsound, t₁, ht₁, hun₁⟩ := hx
  rcases (worldStep_move hstep).engine_step with heq | ⟨b, hb⟩
  · rw [heq]
    exact ⟨hsound, t₁, ht₁, hun₁⟩
  · have hchange := hb.change (hsound.accountIds hs)
    obtain ⟨t₂, ht₂, -, hadv⟩ := hchange.advance ht₁
    refine ⟨hsound.change hs hchange, t₂, ht₂, ?_⟩
    cases hadv with
    | stay hst hf _ => exact ⟨hst ▸ hun₁.1, hf ▸ hun₁.2⟩
    | submitted _ hst =>
        rw [hun₁.1] at hst
        cases hst
    | parked hst _ => simp [hun₁.1, verifiableStatuses] at hst
    | settled hst _ => simp [hun₁.1, verifiableStatuses] at hst
    | reversed hbecause _ =>
        have hopen := hbecause.open_status
        simp [hun₁.1, closedStatuses] at hopen

/-- In every run without a reset of the simulator: every credit that any partner holds
is the credit of one transfer, at the partner of its destination, for its points and the
member of its destination account.  The points of that transfer are in clearing, or were
settled under the confirmation id of this very credit; returned they are only where the
partner rejected the transfer or said it did not have it.  A transfer whose points were
returned because nothing was sent has no credit at any partner, and never will. -/
theorem every_credit_accounted (h₀ : w₀.Initial)
    (h : Runs.run (worldStep cfg retry) w₀ as = some w) :
    (∀ c ∈ w.sim.credits, ∃ t p a, w.engine.store.db.transfer? c.reference = some t ∧
      w.engine.store.db.program? t.destinationProgramId = some p ∧
      p.partnerCode = c.partnerCode ∧
      w.engine.store.db.account? t.destinationAccountId = some a ∧
      a.externalMemberId = some c.memberId ∧ c.points = t.destinationPoints ∧ t.Backs c) ∧
    ∀ t ∈ w.engine.store.db.transfers, t.ReturnedUnsent → ∀ bs w',
      Runs.run (worldStep cfg retry) w bs = some w' → ∀ c ∈ w'.sim.credits,
        c.reference ≠ t.id := by
  have hbacked : ∀ {cs : List WorldAction} {x : World},
      Runs.run (worldStep cfg retry) w₀ cs = some x → ∀ c ∈ x.sim.credits,
      ∃ t, x.engine.store.db.transfer? c.reference = some t ∧
        Ordered w₀.engine.store.db t ⟨c.partnerCode, c.reference, c.memberId, c.points⟩ ∧
        t.Backs c := by
    intro cs x hcs c hc
    obtain ⟨⟨hsound, howned, hhonest⟩, haccounted⟩ := run_accounted h₀ hcs
    obtain ⟨post, hpost, hreq⟩ := hhonest.sim.made c hc
    obtain ⟨t, ht, hordered⟩ := hhonest.posts post hpost
    rw [hreq] at ht hordered
    exact ⟨t, ht, hordered, haccounted.backs hsound howned hhonest (Table.lookup_mem ht) hc
      (Table.lookup_key ht).symm hordered.partner⟩
  refine ⟨?_, ?_⟩
  · intro c hc
    obtain ⟨⟨hsound, -, -⟩, -⟩ := run_accounted h₀ h
    obtain ⟨t, ht, hordered, hbacks⟩ := hbacked h c hc
    obtain ⟨p, hp, hcode⟩ := hordered.partner
    obtain ⟨a₀, ha₀, hid₀, hmember⟩ := hordered.member
    have ha : a₀.plus (effects w.engine.store.db.transfers a₀) ∈ w.engine.store.db.accounts := by
      rw [hsound.accounts]
      exact List.mem_map_of_mem ha₀
    refine ⟨t, p, a₀.plus (effects w.engine.store.db.transfers a₀), ht, ?_, hcode, ?_, hmember,
      hordered.points.symm, hbacks⟩
    · rw [Database.program?, hsound.programs]
      exact hp
    · rw [Database.account?, ← hid₀]
      exact Table.lookup_of_mem (hsound.accountIds h₀.engine.seeded) ha
  · intro t ht hun bs w' hbs c hc href
    obtain ⟨⟨hsound, -, -⟩, -⟩ := run_accounted h₀ h
    obtain ⟨t', ht', hstatus, hcode⟩ := run_returnedUnsent h₀ h hbs
      (Table.lookup_of_mem hsound.transferIds ht) hun
    obtain ⟨x, hx, -, hbacks⟩ := hbacked (Runs.run_append.mpr ⟨w, h, hbs⟩) c hc
    rw [href, ht'] at hx
    cases hx
    cases hbacks with
    | held hs => simp [hstatus, verifiableStatuses] at hs
    | completed hs _ =>
        rw [hstatus] at hs
        cases hs
    | reversed _ hother =>
        rcases hcode with hcode | hcode <;> rw [hcode] at hother <;> simp at hother

end

/-- The partner's host refuses the connection until the call gives up. -/
def unreachableRun : List WorldAction :=
  submittedRun.map .engine ++
    [.enterCredit 0 5 ({} : Settings).breaker, .sendCredit 0 5 5,
      .receiveCredit 0 (some .connectError) ⟨5, 5, 1⟩, .sendCredit 0 6 6,
      .receiveCredit 0 (some .connectError) ⟨6, 30, 1⟩, .leaveCredit 0,
      .engine (.request 0 (.outcome 30 30))]

theorem every_credit_accounted_runs :
    (∃ w c t, Runs.run (worldStep sampleConfig ({} : Settings).adapter.retry) freshWorld
        replayedRun = some w ∧ c ∈ w.sim.credits ∧
      w.engine.store.db.transfer? c.reference = some t ∧ t.Backs c) ∧
    ∃ w t, Runs.run (worldStep sampleConfig ({} : Settings).adapter.retry) freshWorld
        unreachableRun = some w ∧ t ∈ w.engine.store.db.transfers ∧ t.Unavailable ∧
      ∀ bs w', Runs.run (worldStep sampleConfig ({} : Settings).adapter.retry) w bs = some w' →
        ∀ c ∈ w'.sim.credits, c.reference ≠ t.id := by
  constructor
  · have hany : (Runs.run (worldStep sampleConfig ({} : Settings).adapter.retry) freshWorld
        replayedRun).any (fun w => !w.sim.credits.isEmpty) = true := by
      decide +kernel
    obtain ⟨w, hw, hnonempty⟩ := (Option.any_eq_true _ _).mp hany
    obtain ⟨c, hc⟩ : ∃ c, c ∈ w.sim.credits := by
      refine List.exists_mem_of_ne_nil _ ?_
      simpa using hnonempty
    obtain ⟨hcredits, -⟩ := every_credit_accounted freshWorld_initial hw
    obtain ⟨t, -, -, ht, -, -, -, -, -, hbacks⟩ := hcredits c hc
    exact ⟨w, c, t, hw, hc, ht, hbacks⟩
  · have hany : (Runs.run (worldStep sampleConfig ({} : Settings).adapter.retry) freshWorld
        unreachableRun).any (fun w => w.engine.store.db.transfers.any fun t =>
          decide (t.status = .reversed ∧ t.failureCode = some .partnerUnavailable)) = true := by
      decide +kernel
    obtain ⟨w, hw, hall⟩ := (Option.any_eq_true _ _).mp hany
    obtain ⟨t, ht, hun⟩ := List.any_eq_true.mp hall
    have hun := of_decide_eq_true hun
    obtain ⟨-, hnever⟩ := every_credit_accounted freshWorld_initial hw
    exact ⟨w, t, hw, ht, hun, hnever t ht ⟨hun.1, .inr hun.2⟩⟩

end LoyaltyTransfer
