/-
# `LoyaltyTransfer.Verification` — checks of an unresolved transfer, and their limit

`ReconciliationService._apply` may record answers about one transfer from any number
of reconcilers, in any order, while the API request that owns the transfer still runs.
Only an answer that says nothing counts against `max_attempts`:

    COMPLETED with a confirmation id       settled
    NOT_FOUND, grace over                  reversed
    NOT_FOUND, grace running               checked again when it ends, not counted
    UNKNOWN, COMPLETED without an id       counted, and at `max_attempts` handed over

**Proved here.**  In every run `verification_attempts` is the number of inconclusive
answers that were committed, at most `max_attempts`, and the transfer is in
MANUAL_REVIEW exactly when that number is reached; NOT_FOUND never counts, and
reverses exactly from the end of the grace on, as long as the instants it computes are
`datetime`s and the balances fit (`attempts_counted`).  That every check of an
unreachable partner up to some instant is committed, and the last hands the transfer
over, holds exactly while the doubled delay, before it is capped, is still a
`timedelta`, and the capped one leads to a `datetime` (`backoff_capped_iff`); where it
is no `timedelta`, nothing is ever handed over (`never_handed_over`).
-/
import LoyaltyTransfer.Recording

namespace LoyaltyTransfer

open Transaction

/-! ## What a recorded answer does to the row -/

/-- The row and the result of `_apply` for a transfer it found verifiable. -/
inductive StatusRecorded (policy : ReconciliationPolicy) (now : Time) (t : Transfer)
    (answer : PartnerStatusResult) : ReconcileResult → Transfer → Prop
  | settled {confirmationId : String} {wall : Time} (hst : answer.status = .completed)
      (hconf : nonempty answer.confirmationId = some confirmationId) :
      StatusRecorded policy now t answer .completed (t.settledAs confirmationId wall)
  | reversed {message : String} {wall : Time} (hst : answer.status = .notFound)
      (hlate : t.createdAt + policy.notFoundGrace ≤ now) :
      StatusRecorded policy now t answer .reversed
        (t.reversedAs .partnerNotReceived message wall)
  | early (hst : answer.status = .notFound) (hearly : now < t.createdAt + policy.notFoundGrace) :
      StatusRecorded policy now t answer .retryScheduled
        { t.verifying with
          nextVerificationAt :=
            some (min (now + policy.backoffBase) (t.createdAt + policy.notFoundGrace)) }
  | counted {delay : Time} (hopen : answer.inconclusive = true)
      (hmore : t.verificationAttempts + 1 < policy.maxAttempts)
      (hdelay : policy.backoff (t.verificationAttempts + 1) = .ok delay) :
      StatusRecorded policy now t answer .retryScheduled (t.counted (some (now + delay)))
  | exhausted {wall : Time} (hopen : answer.inconclusive = true)
      (hlast : policy.maxAttempts ≤ t.verificationAttempts + 1) :
      StatusRecorded policy now t answer .manualReview (t.exhausted.movedTo .manualReview wall)

section

variable {policy : ReconciliationPolicy} {now wall : Time} {db db' : Database} {t t' : Transfer}
  {answer : PartnerStatusResult} {r : ReconcileResult} {metadata : List (String × Json.Value)}

theorem StatusRecorded.id_eq (h : StatusRecorded policy now t answer r t') : t'.id = t.id := by
  cases h with
  | _ => rfl

theorem StatusRecorded.resolved (h : StatusRecorded policy now t answer r t') :
    r ≠ .alreadyResolved := by
  cases h with
  | _ =>
      intro h
      cases h

theorem StatusRecorded.leaves_status (h : StatusRecorded policy now t answer r t') :
    r.leaves = some t'.status := by
  cases h with
  | _ => rfl

/-- The one row a committed `_apply` writes. -/
theorem StatusRun.recorded (hn : (db.accounts.map Account.id).Nodup)
    (h : StatusRun policy now wall db t answer r db') :
    ∃ db₁ t' events moment, db' = saved db₁ t' events moment ∧ db₁.transfers = db.transfers ∧
      StatusRecorded policy now t answer r t' := by
  cases h with
  | settled hst hconf hrun =>
      obtain ⟨accts, -, -, -, -, -, rfl⟩ := (settleTransfer_ok hn).mp hrun
      exact ⟨_, _, _, _, rfl, rfl, .settled hst hconf⟩
  | reversed hst hlate hrun =>
      obtain ⟨clearing, source, -, -, -, -, -, -, rfl⟩ := (reverseTransfer_ok hn).mp hrun
      exact ⟨_, _, _, _, rfl, rfl, .reversed hst hlate⟩
  | early hst hearly hrow =>
      cases hrow
      exact ⟨db, _, _, _, rfl, rfl, .early hst hearly⟩
  | counted hopen hmore hdelay => exact ⟨db, _, _, _, rfl, rfl, .counted hopen hmore hdelay⟩
  | exhausted hopen hlast => exact ⟨db, _, _, _, rfl, rfl, .exhausted hopen hlast⟩

/-- An inconclusive answer moves no points, whatever the accounts. -/
theorem StatusRun.saved_of_inconclusive (hopen : answer.inconclusive = true)
    (h : StatusRun policy now wall db t answer r db') :
    ∃ t' events moment, db' = saved db t' events moment ∧
      StatusRecorded policy now t answer r t' := by
  obtain ⟨hmissing, hunconfirmed⟩ := inconclusive_iff.mp hopen
  cases h with
  | settled hst hconf => exact absurd hconf (hunconfirmed _ hst)
  | reversed hst => exact absurd hst hmissing
  | early hst => exact absurd hst hmissing
  | counted hopen hmore hdelay => exact ⟨_, _, _, rfl, .counted hopen hmore hdelay⟩
  | exhausted hopen hlast => exact ⟨_, _, _, rfl, .exhausted hopen hlast⟩

/-- An application that commits found the transfer resolved and changed nothing, or
wrote one row, and no other. -/
theorem applyStatus_recorded (hn : (db.accounts.map Account.id).Nodup)
    (ht : db.transfer? t.id = some t)
    (h : (applyStatus policy now wall t.id answer).run db = .ok (r, db')) :
    (t.status ∉ verifiableStatuses ∧ r = .alreadyResolved ∧ db' = db) ∨
      (t.status ∈ verifiableStatuses ∧ ∃ t', db'.transfer? t.id = some t' ∧
        StatusRecorded policy now t answer r t') := by
  obtain ⟨x, hid, hx, hrun⟩ := applyStatus_inv h
  rw [hid] at hx
  cases hx.symm.trans ht
  rcases hrun with hresolved | ⟨hv, hrun⟩
  · exact .inl hresolved
  · obtain ⟨db₁, t', events, moment, rfl, hdb, hrec⟩ := hrun.recorded hn
    exact .inr ⟨hv, t', transfer?_saved_self hdb ht hrec.id_eq, hrec⟩

end

/-! ## Counting along a run -/

/-- The action commits an inconclusive answer about transfer `id`: the transaction that
applies it commits, and found the transfer unresolved. -/
def State.commitsInconclusive (cfg : Config) (id : String) (s : State) : Action → Bool
  | .reconcile k (.apply now wall) =>
      match s.reconciles[k]? with
      | some ⟨transferId, .resolving answer⟩ =>
          decide (transferId = id) && answer.inconclusive &&
            match (applyStatus cfg.policy now wall id answer).run s.store.db with
            | .ok (r, _) => decide (r ≠ .alreadyResolved)
            | .error _ => false
      | _ => false
  | _ => false

/-- The count and the hand-over are as they were. -/
structure SameCount (t t' : Transfer) : Prop where
  attempts : t'.verificationAttempts = t.verificationAttempts
  handedOver : t'.status = .manualReview ↔ t.status = .manualReview

/-- What a step can do to the row of one transfer, and whether it committed an
inconclusive answer about it. -/
inductive RowMove (policy : ReconciliationPolicy) :
    Option Transfer → Bool → Option Transfer → Prop
  | absent : RowMove policy none false none
  | opened {t : Transfer} (hzero : t.verificationAttempts = 0)
      (hs : t.status = .sourceDebited) : RowMove policy none false (some t)
  | same {t t' : Transfer} (h : SameCount t t') : RowMove policy (some t) false (some t')
  | recorded {t t' : Transfer} {now : Time} {answer : PartnerStatusResult} {r : ReconcileResult}
      (hv : t.status ∈ verifiableStatuses) (h : StatusRecorded policy now t answer r t') :
      RowMove policy (some t) answer.inconclusive (some t')

section

variable {c : Cause} {cfg : Config} {s s' : State} {a : Action} {id : String}
  {db db' : Database} {t t' x : Transfer}

theorem SameCount.refl (t : Transfer) : SameCount t t := ⟨rfl, Iff.rfl⟩

/-- A transfer that leaves one status for another, neither of them MANUAL_REVIEW. -/
theorem sameCount_moved (hattempts : t'.verificationAttempts = t.verificationAttempts)
    (hs : t.status ≠ .manualReview) (hs' : t'.status ≠ .manualReview) : SameCount t t' :=
  ⟨hattempts, iff_of_false hs' hs⟩

theorem verifiable_not_manualReview (h : t.status ∈ verifiableStatuses) :
    t.status ≠ .manualReview := by
  intro hst
  rw [hst] at h
  exact absurd h (by decide)

theorem ReversedBecause.not_manualReview {late : Transfer → Prop} {code : TransferFailureCode}
    (h : ReversedBecause late t code) : t.status ≠ .manualReview := by
  intro hst
  cases h with
  | rejected hs => cases hst.symm.trans hs
  | unavailable hs => cases hst.symm.trans hs
  | notReceived hs => exact verifiable_not_manualReview hs hst
  | interrupted hs => cases hst.symm.trans hs

/-- No change counts but one that records an answer of the partner. -/
theorem Change.sameCount (h : Change c db db') (hrec : ¬ c.records id)
    (hx : db.transfer? id = some x) :
    ∃ x', db'.transfer? id = some x' ∧ SameCount x x' := by
  have hsaved : ∀ {db₁ : Database} {t t' : Transfer} {events : List TransferEvent}
      {moment : Option Time},
      db₁.transfers = db.transfers → db.transfer? t.id = some t → t'.id = t.id → SameCount t t' →
      ∃ x', (saved db₁ t' events moment).transfer? id = some x' ∧ SameCount x x' := by
    intro db₁ t t' events moment hdb ht hid hcount
    rcases transfer?_saved hdb events moment ht hid hx with ⟨-, rfl, h⟩ | ⟨-, h⟩
    · exact ⟨t', h, hcount⟩
    · exact ⟨x, h, SameCount.refl x⟩
  cases h with
  | frame hf =>
      refine ⟨x, ?_, SameCount.refl x⟩
      rw [Database.transfer?, hf.transfers]
      exact hx
  | opened => exact ⟨x, Table.lookup_append_of_some _ hx, SameCount.refl x⟩
  | submitted ht _ hs =>
      refine hsaved rfl ht rfl (sameCount_moved rfl ?_ (by rintro ⟨⟩))
      rw [hs]
      intro h
      cases h
  | @parked t t' moment events ht _ hterms _ hrec' =>
      rcases transfer?_saved rfl events moment ht hterms.id hx with ⟨rfl, -, -⟩ | ⟨-, h⟩
      · exact absurd hrec' hrec
      · exact ⟨x, h, SameCount.refl x⟩
  | settled _ ht hs =>
      exact hsaved rfl ht rfl (sameCount_moved rfl (verifiable_not_manualReview hs) (by rintro ⟨⟩))
  | reversed _ ht hs =>
      exact hsaved rfl ht rfl (sameCount_moved rfl hs.not_manualReview (by rintro ⟨⟩))
  | leased claimed expiry =>
      refine ⟨_, lookup_map_id (fun t => ?_) hx, ?_⟩
      · by_cases hc : t.id ∈ claimed <;> simp [hc]
      · by_cases hc : x.id ∈ claimed
        · rw [if_pos hc]
          exact ⟨rfl, Iff.rfl⟩
        · rw [if_neg hc]
          exact SameCount.refl x

/-- The answer to the credit itself never counts. -/
theorem applyPartnerOutcome_sameCount (hn : (db.accounts.map Account.id).Nodup)
    {verificationDelay now wall : Time} {result : PartnerCreditResult} {status : TransferStatus}
    (ht : db.transfer? t.id = some t)
    (h : (applyPartnerOutcome verificationDelay now wall t.id result).run db =
      .ok (status, db')) :
    ∃ t', db'.transfer? t.id = some t' ∧ SameCount t t' := by
  obtain ⟨x, hid, hx, hrun⟩ := applyPartnerOutcome_inv h
  rw [hid] at hx
  cases hx.symm.trans ht
  rcases hrun with ⟨-, -, rfl⟩ | ⟨hs, hrun⟩
  · exact ⟨t, ht, SameCount.refl t⟩
  · have hne : t.status ≠ .manualReview := by
      rw [hs]
      decide
    cases hrun with
    | settled _ _ hrun =>
        obtain ⟨accts, -, -, -, -, -, rfl⟩ := (settleTransfer_ok hn).mp hrun
        exact ⟨_, transfer?_saved_self rfl ht rfl, sameCount_moved rfl hne (by rintro ⟨⟩)⟩
    | rejected _ hrun =>
        obtain ⟨clearing, source, -, -, -, -, -, -, rfl⟩ := (reverseTransfer_ok hn).mp hrun
        exact ⟨_, transfer?_saved_self rfl ht rfl, sameCount_moved rfl hne (by rintro ⟨⟩)⟩
    | unavailable _ hrun =>
        obtain ⟨clearing, source, -, -, -, -, -, -, rfl⟩ := (reverseTransfer_ok hn).mp hrun
        exact ⟨_, transfer?_saved_self rfl ht rfl, sameCount_moved rfl hne (by rintro ⟨⟩)⟩
    | parked => exact ⟨_, transfer?_saved_self rfl ht rfl, sameCount_moved rfl hne (by rintro ⟨⟩)⟩

/-- Of the answers to a status check, the inconclusive ones count, and the last of them
hands the transfer over. -/
theorem StatusRecorded.counts {policy : ReconciliationPolicy} {now : Time}
    {answer : PartnerStatusResult} {r : ReconcileResult}
    (h : StatusRecorded policy now t answer r t') :
    t'.verificationAttempts = t.verificationAttempts + answer.inconclusive.toNat ∧
      (t'.status = .manualReview ↔
        answer.inconclusive = true ∧ policy.maxAttempts ≤ t.verificationAttempts + 1) := by
  have hclear : answer.inconclusive = false →
      t.verificationAttempts = t.verificationAttempts + answer.inconclusive.toNat ∧
        ¬ (answer.inconclusive = true ∧ policy.maxAttempts ≤ t.verificationAttempts + 1) := by
    intro h
    simp [h]
  cases h with
  | settled hst hconf =>
      obtain ⟨hsame, hno⟩ := hclear (by simp [PartnerStatusResult.inconclusive, hst, hconf])
      exact ⟨hsame, iff_of_false (by rintro ⟨⟩) hno⟩
  | reversed hst =>
      obtain ⟨hsame, hno⟩ := hclear (by simp [PartnerStatusResult.inconclusive, hst])
      exact ⟨hsame, iff_of_false (by rintro ⟨⟩) hno⟩
  | early hst =>
      obtain ⟨hsame, hno⟩ := hclear (by simp [PartnerStatusResult.inconclusive, hst])
      exact ⟨hsame, iff_of_false (by rintro ⟨⟩) hno⟩
  | counted hopen hmore _ =>
      refine ⟨by rw [hopen]; rfl, iff_of_false (by rintro ⟨⟩) ?_⟩
      rintro ⟨-, hlast⟩
      exact absurd hmore (not_lt.mpr hlast)
  | exhausted hopen hlast => exact ⟨by rw [hopen]; rfl, iff_of_true rfl ⟨hopen, hlast⟩⟩

theorem commitsInconclusive_iff :
    s.commitsInconclusive cfg id a = true ↔
      ∃ k now wall answer r db', a = .reconcile k (.apply now wall) ∧
        s.reconciles[k]? = some ⟨id, .resolving answer⟩ ∧ answer.inconclusive = true ∧
        (applyStatus cfg.policy now wall id answer).run s.store.db = .ok (r, db') ∧
        r ≠ .alreadyResolved := by
  constructor
  · intro h
    simp only [State.commitsInconclusive] at h
    split at h
    · split at h
      · rename_i hp
        simp only [Bool.and_eq_true, decide_eq_true_eq] at h
        obtain ⟨⟨rfl, hopen⟩, hrun⟩ := h
        split at hrun
        · rename_i hok
          exact ⟨_, _, _, _, _, _, rfl, hp, hopen, hok, of_decide_eq_true hrun⟩
        · cases hrun
      · cases h
    · cases h
  · rintro ⟨k, now, wall, answer, r, db', rfl, hp, hopen, hrun, hr⟩
    simp [State.commitsInconclusive, hp, hopen, hrun, hr]

theorem commitsInconclusive_records (h : s.commitsInconclusive cfg id a = true) :
    s.records a id := by
  obtain ⟨k, now, wall, answer, _, _, rfl, hp, -⟩ := commitsInconclusive_iff.mp h
  exact .inr ⟨k, now, wall, _, answer, rfl, hp, rfl, rfl⟩

/-- `_apply` of an answer commits and finishes its reconcile, or raises and changes
nothing. -/
theorem apply_inv {k : Nat} {now wall : Time} {answer : PartnerStatusResult}
    (hp : s.reconciles[k]? = some ⟨id, .resolving answer⟩)
    (hstep : step cfg s (.reconcile k (.apply now wall)) = some s') :
    (∃ r, (applyStatus cfg.policy now wall id answer).run s.store.db = .ok (r, s'.store.db) ∧
      s'.reconciles[k]? = some ⟨id, .finished r⟩) ∨
    ∃ f, (applyStatus cfg.policy now wall id answer).run s.store.db = .error f ∧
      s'.store.db = s.store.db ∧ s'.reconciles[k]? = some ⟨id, .stopped f⟩ := by
  have hlt := (List.getElem?_eq_some_iff.mp hp).1
  cases step_inv hstep with
  | reconcile hp' hm =>
      cases hp.symm.trans hp'
      cases hm with
      | @applied _ _ _ r _ hpc hrun =>
          cases hpc
          exact .inl ⟨r, hrun, List.getElem?_set_self hlt⟩
      | @applyRaised _ _ _ f hpc hrun =>
          cases hpc
          exact .inr ⟨f, hrun, rfl, List.getElem?_set_self hlt⟩

/-- A transfer that was not there begins at zero. -/
theorem rowMove_new (h : Change c db db') (policy : ReconciliationPolicy)
    (hx : db.transfer? id = none) : RowMove policy none false (db'.transfer? id) := by
  cases hx' : db'.transfer? id with
  | none => exact .absent
  | some t =>
      have hid : t.id = id := Table.lookup_key hx'
      have hfresh : ∀ y ∈ db.transfers, y.id ≠ t.id := by
        intro y hy
        rw [hid]
        exact Table.lookup_none hx hy
      obtain ⟨-, _, _, _, hopening⟩ := h.opened_of_new (Table.lookup_mem hx') hfresh
      obtain ⟨_, _, _, -, hrow⟩ := hopening.priced
      exact .opened (by rw [hrow]; rfl) hopening.status

theorem apply_rowMove (hn : (s.store.db.accounts.map Account.id).Nodup)
    (hx : s.store.db.transfer? x.id = some x) {k : Nat} {now wall : Time}
    {answer : PartnerStatusResult} (hp : s.reconciles[k]? = some ⟨x.id, .resolving answer⟩)
    (hstep : step cfg s (.reconcile k (.apply now wall)) = some s') :
    RowMove cfg.policy (some x)
      (s.commitsInconclusive cfg x.id (.reconcile k (.apply now wall)))
      (s'.store.db.transfer? x.id) := by
  rcases apply_inv hp hstep with ⟨r, hrun, -⟩ | ⟨f, hrun, hdb, -⟩
  · rcases applyStatus_recorded hn hx hrun with ⟨-, rfl, hdb⟩ | ⟨hv, x', hx', hrec⟩
    · have hno : s.commitsInconclusive cfg x.id (.reconcile k (.apply now wall)) = false := by
        simp [State.commitsInconclusive, hp, hrun]
      rw [hno, hdb, hx]
      exact .same (SameCount.refl x)
    · have hyes : s.commitsInconclusive cfg x.id (.reconcile k (.apply now wall)) =
          answer.inconclusive := by
        simp [State.commitsInconclusive, hp, hrun, hrec.resolved]
      rw [hyes, hx']
      exact .recorded hv hrec
  · have hno : s.commitsInconclusive cfg x.id (.reconcile k (.apply now wall)) = false := by
      simp [State.commitsInconclusive, hp, hrun]
    rw [hno, hdb, hx]
    exact .same (SameCount.refl x)

/-- Whatever the action, the row of a transfer goes on in one of the listed ways. -/
theorem step_rowMove (hn : (s.store.db.accounts.map Account.id).Nodup)
    (hstep : step cfg s a = some s') (id : String) :
    RowMove cfg.policy (s.store.db.transfer? id) (s.commitsInconclusive cfg id a)
      (s'.store.db.transfer? id) := by
  have hmove := step_inv hstep
  have hchange := hmove.change hn
  have hquiet : ¬ s.records a id → s.commitsInconclusive cfg id a = false := by
    intro hrec
    exact Bool.eq_false_iff.mpr fun hyes => hrec (commitsInconclusive_records hyes)
  cases hx : s.store.db.transfer? id with
  | none =>
      have hno : s.commitsInconclusive cfg id a = false := by
        refine Bool.eq_false_iff.mpr fun hyes => ?_
        obtain ⟨k, now, wall, answer, r, db', -, -, -, hrun, -⟩ :=
          commitsInconclusive_iff.mp hyes
        simp only [applyStatus, Tx.bind_ok, lockTransfer_ok] at hrun
        obtain ⟨t, _, ⟨ht, -⟩, -⟩ := hrun
        cases hx.symm.trans ht
      rw [hno]
      exact rowMove_new hchange cfg.policy hx
  | some x =>
      obtain rfl : x.id = id := Table.lookup_key hx
      by_cases hrec : s.records a x.id
      · rcases hrec with ⟨i, now, wall, r, record, d, result, rfl, hr, hpc, hid⟩ |
          ⟨k, now, wall, p, answer, rfl, hp, hpc, hid⟩
        · -- the request that owns the transfer records the answer to its credit
          cases hmove with
          | request hr' hm =>
              cases hr.symm.trans hr'
              cases hm with
              | recorded hpc' hrun =>
                  cases hpc.symm.trans hpc'
                  rw [hid] at hrun
                  obtain ⟨x', hx', hsame⟩ := applyPartnerOutcome_sameCount hn hx hrun
                  rw [hx']
                  exact .same hsame
              | recordRaised =>
                  rw [hx]
                  exact .same (SameCount.refl x)
        · obtain ⟨transferId, pc⟩ := p
          obtain rfl : pc = .resolving answer := hpc
          obtain rfl : transferId = x.id := hid
          exact apply_rowMove hn hx hp hstep
      · obtain ⟨x', hx', hsame⟩ := hchange.sameCount hrec hx
        rw [hquiet hrec, hx']
        exact .same hsame

end

/-- What the row of a transfer says after `n` inconclusive answers. -/
structure Counted (policy : ReconciliationPolicy) (n : Nat) (row : Option Transfer) : Prop where
  new : row = none → n = 0
  attempts : ∀ t, row = some t → t.verificationAttempts = n
  limit : n ≤ policy.maxAttempts
  handedOver : ∀ t, row = some t →
    (t.status = .manualReview ↔ (n : Int) = policy.maxAttempts)

section

variable {cfg : Config} {s₀ s : State} {as : List Action} {n : Nat} {counts : Bool}
  {policy : ReconciliationPolicy} {row row' : Option Transfer}

theorem counted_absent (hmax : 1 ≤ policy.maxAttempts) : Counted policy 0 none where
  new := fun _ => rfl
  attempts := by
    intro t ht
    cases ht
  limit := le_trans (by decide) hmax
  handedOver := by
    intro t ht
    cases ht

theorem Counted.step (h : Counted policy n row) (hmax : 1 ≤ policy.maxAttempts)
    (hmove : RowMove policy row counts row') : Counted policy (n + counts.toNat) row' := by
  cases hmove with
  | absent => exact h
  | @opened t hzero hs =>
      obtain rfl := h.new rfl
      refine ⟨by simp, ?_, h.limit, ?_⟩
      · rintro _ ⟨rfl⟩
        exact hzero
      · rintro _ ⟨rfl⟩
        rw [hs]
        refine iff_of_false (by simp) ?_
        intro heq
        rw [← heq] at hmax
        exact absurd hmax (by decide)
  | @same t t' hsame =>
      refine ⟨by simp, ?_, h.limit, ?_⟩
      · rintro _ ⟨rfl⟩
        exact hsame.attempts.trans (h.attempts t rfl)
      · rintro _ ⟨rfl⟩
        exact hsame.handedOver.trans (h.handedOver t rfl)
  | @recorded t t' _ answer _ hv hrec =>
      obtain ⟨hattempts, hover⟩ := hrec.counts
      rw [h.attempts t rfl] at hattempts hover
      -- not handed over yet, so the limit is not reached
      have hless : (n : Int) < policy.maxAttempts := by
        refine lt_of_le_of_ne h.limit fun heq => ?_
        exact verifiable_not_manualReview hv ((h.handedOver t rfl).mpr heq)
      refine ⟨by simp, ?_, ?_, ?_⟩
      · rintro _ ⟨rfl⟩
        rw [hattempts]
        push_cast
        rfl
      · cases answer.inconclusive with
        | false => exact h.limit
        | true => exact Int.add_one_le_iff.mpr hless
      · rintro _ ⟨rfl⟩
        rw [hover]
        cases answer.inconclusive with
        | false =>
            refine iff_of_false ?_ hless.ne
            rintro ⟨hopen, -⟩
            cases hopen
        | true =>
            constructor
            · rintro ⟨-, hlast⟩
              exact le_antisymm (Int.add_one_le_iff.mpr hless) hlast
            · intro heq
              exact ⟨rfl, heq.ge⟩

theorem Initial.transfer?_eq_none (h : Initial s₀) (id : String) :
    s₀.store.db.transfer? id = none := by
  rw [Database.transfer?, h.seeded.noTransfers]
  rfl

theorem run_counted (h₀ : Initial s₀) (hmax : 1 ≤ cfg.policy.maxAttempts)
    (h : Runs.run (step cfg) s₀ as = some s) (id : String) :
    Counted cfg.policy (Runs.count (step cfg) (State.commitsInconclusive cfg id) s₀ as)
      (s.store.db.transfer? id) := by
  have hI := Runs.run_count (p := State.commitsInconclusive cfg id)
    (I := fun n x => Sound s₀.store.db x.store.db ∧
      Counted cfg.policy n (x.store.db.transfer? id)) (n := 0)
    (fun n x a x' hx hstep => ?_) ⟨h₀.seeded.sound, ?_⟩ h
  · rw [Nat.zero_add] at hI
    exact hI.2
  · obtain ⟨hsound, hcounted⟩ := hx
    exact ⟨hsound.step h₀.seeded hstep,
      hcounted.step hmax (step_rowMove (hsound.accountIds h₀.seeded) hstep id)⟩
  · rw [h₀.transfer?_eq_none id]
    exact counted_absent hmax

end

/-- NOT_FOUND reverses from the end of the grace on, and until then asks again, not later
than then. -/
theorem StatusRecorded.notFound {policy : ReconciliationPolicy} {now : Time} {t t' : Transfer}
    {answer : PartnerStatusResult} {r : ReconcileResult}
    (h : StatusRecorded policy now t answer r t') (hst : answer.status = .notFound)
    (hbase : 0 < policy.backoffBase) :
    t'.verificationAttempts = t.verificationAttempts ∧
      (t'.status = .reversed ↔ t.createdAt + policy.notFoundGrace ≤ now) ∧
      (now < t.createdAt + policy.notFoundGrace → t'.status = .pendingVerification ∧
        ∃ next, t'.nextVerificationAt = some next ∧ now < next ∧
          next ≤ t.createdAt + policy.notFoundGrace) := by
  have hclear : ¬ answer.inconclusive = true := fun hopen => (inconclusive_iff.mp hopen).1 hst
  cases h with
  | settled hst' => cases hst.symm.trans hst'
  | reversed _ hlate =>
      exact ⟨rfl, iff_of_true rfl hlate, fun hearly => absurd hearly (not_lt.mpr hlate)⟩
  | early _ hearly =>
      refine ⟨rfl, iff_of_false (by rintro ⟨⟩) (not_le.mpr hearly), fun _ => ⟨rfl, _, rfl, ?_, ?_⟩⟩
      · exact lt_min (lt_add_of_pos_right now hbase) hearly
      · exact min_le_right ..
  | counted hopen => exact absurd hopen hclear
  | exhausted hopen => exact absurd hopen hclear

/-- The action applies NOT_FOUND about the unresolved transfer `t` at `now`, for
reconcile `k`.  The adapter's reasons are fixed texts, without NUL. -/
def State.appliesNotFound (s : State) (k : Nat) (now : Time) (t : Transfer) (a : Action) : Prop :=
  t ∈ s.store.db.transfers ∧ (t.status = .partnerSubmitted ∨ t.status = .pendingVerification) ∧
    ∃ wall answer, a = .reconcile k (.apply now wall) ∧
      s.reconciles[k]? = some ⟨t.id, .resolving answer⟩ ∧ answer.status = .notFound ∧
      '\x00' ∉ answer.reason.toList

/-- NOT_FOUND was applied: the count is as it was, the transfer is reversed exactly from
`created_at + not_found_grace` on, and before that a check is scheduled in the future
that comes no later. -/
structure NotFoundApplied (policy : ReconciliationPolicy) (k : Nat) (now : Time) (t : Transfer)
    (s' : State) : Prop where
  commits : ∃ r, s'.reconciles[k]? = some ⟨t.id, .finished r⟩
  row : ∃ t', s'.store.db.transfer? t.id = some t' ∧
    t'.verificationAttempts = t.verificationAttempts ∧
    (t'.status = .reversed ↔ t.createdAt + policy.notFoundGrace ≤ now) ∧
    (now < t.createdAt + policy.notFoundGrace → t'.status = .pendingVerification ∧
      ∃ next, t'.nextVerificationAt = some next ∧ now < next ∧
        next ≤ t.createdAt + policy.notFoundGrace)

/-- From a reachable state NOT_FOUND is applied exactly when it can be recorded. -/
theorem notFoundApplied_iff {cfg : Config} {db₀ : Database} {s s' : State} {a : Action} {k : Nat}
    {now : Time} {t : Transfer} (hs : Seeded db₀) (h : Sound db₀ s.store.db)
    (haudited : Audited s.store.db) (hbase : 0 < cfg.policy.backoffBase)
    (hstep : step cfg s a = some s') (happlies : s.appliesNotFound k now t a) :
    NotFoundApplied cfg.policy k now t s' ↔ cfg.policy.RecordsNotFound now t s.store.db := by
  obtain ⟨ht, hst, wall, answer, rfl, hp, hanswer, hreason⟩ := happlies
  have hrow := Table.lookup_of_mem h.transferIds ht
  have hv : t.status ∈ verifiableStatuses := by simpa [verifiableStatuses] using hst
  have hresolves := (applyStatus_resolves hrow hv).trans (recordStatus_notFound_iff h hs hrow
    (haudited.valid t ht) hv cfg.policy now wall hanswer hreason)
  rcases apply_inv hp hstep with ⟨r, hrun, hpc⟩ | ⟨f, hrun, -, hpc⟩
  · rcases applyStatus_recorded (h.accountIds hs) hrow hrun with
      ⟨hresolved, -, -⟩ | ⟨-, t', ht', hrec⟩
    · exact absurd hv hresolved
    · exact iff_of_true ⟨⟨r, hpc⟩, t', ht', hrec.notFound hanswer hbase⟩
        (hresolves.mp ⟨r, _, t', hrun, ht', hrec.leaves_status⟩)
  · refine iff_of_false ?_ fun hcan => ?_
    · rintro ⟨⟨r, hpc'⟩, -⟩
      cases hpc.symm.trans hpc'
    · obtain ⟨_, _, _, hok, -⟩ := hresolves.mpr hcan
      cases hrun.symm.trans hok

/-- In every run, whatever the partner answers, whoever records it and in whatever order:
`verification_attempts` is the number of inconclusive answers committed, at most
`max_attempts`, and the transfer is in MANUAL_REVIEW exactly when that many were.  And
every NOT_FOUND about an unresolved transfer is applied exactly when each of them can be
recorded where it is. -/
theorem attempts_counted {cfg : Config} {s₀ s : State} {as : List Action} (h₀ : Initial s₀)
    (hmax : 1 ≤ cfg.policy.maxAttempts) (hbase : 0 < cfg.policy.backoffBase)
    (h : Runs.run (step cfg) s₀ as = some s) :
    (∀ t ∈ s.store.db.transfers,
      t.verificationAttempts =
          Runs.count (step cfg) (State.commitsInconclusive cfg t.id) s₀ as ∧
        t.verificationAttempts ≤ cfg.policy.maxAttempts ∧
        (t.status = .manualReview ↔ t.verificationAttempts = cfg.policy.maxAttempts)) ∧
    (Runs.AllSteps (step cfg) (fun x a => ∀ x' k now t, step cfg x a = some x' →
        x.appliesNotFound k now t a → NotFoundApplied cfg.policy k now t x') s₀ as ↔
      Runs.AllSteps (step cfg) (fun x a => ∀ k now t, x.appliesNotFound k now t a →
        cfg.policy.RecordsNotFound now t x.store.db) s₀ as) := by
  obtain ⟨hsound, -⟩ := run_audited h₀ h
  constructor
  · intro t ht
    have hrow := Table.lookup_of_mem hsound.transferIds ht
    have hcounted := run_counted h₀ hmax h t.id
    rw [hcounted.attempts t hrow]
    exact ⟨rfl, hcounted.limit, hcounted.handedOver t hrow⟩
  · refine Runs.allSteps_congr (I := fun x => ∃ bs, Runs.run (step cfg) s₀ bs = some x) ?_ ?_
      ⟨[], rfl⟩ h
    · rintro x a x' ⟨bs, hx⟩ - hstep
      exact ⟨bs ++ [a], Runs.run_append.mpr ⟨x, hx, by simp [Runs.run, hstep]⟩⟩
    · rintro x a x' ⟨bs, hx⟩ hstep
      obtain ⟨hsound, haudited⟩ := run_audited h₀ hx
      constructor
      · intro happlied k now t happlies
        exact (notFoundApplied_iff h₀.seeded hsound haudited hbase hstep happlies).mp
          (happlied x' k now t hstep happlies)
      · intro hcan x₁ k now t hstep₁ happlies
        exact (notFoundApplied_iff h₀.seeded hsound haudited hbase hstep₁ happlies).mpr
          (hcan k now t happlies)

/-- NOT_FOUND, as the adapter words it. -/
def creditNotFound : PartnerStatusResult :=
  ⟨.notFound, "credit_not_found", false, none, some 404, 1⟩

/-- The partner does not answer the credit in time, is down at the first check, and at
the second has not seen the credit. -/
def verifiedRun : List Action :=
  submittedRun ++
    [.request 0 (.call 5), .request 0 (.answer ⟨.unknown, "timeout", true, none, none, 3⟩),
      .request 0 (.outcome 13 13), .startReconcile sampleTransferId, .reconcile 0 .snapshot,
      .reconcile 0 (.decide 23), .reconcile 0 (.status ⟨.unknown, "timeout", true, none, none, 3⟩),
      .reconcile 0 (.apply 31 31), .startReconcile sampleTransferId, .reconcile 1 .snapshot,
      .reconcile 1 (.decide 41), .reconcile 1 (.status creditNotFound)]

/-- No NOT_FOUND is applied but inside the grace, with the next check a `datetime`. -/
def State.notFoundInTime (policy : ReconciliationPolicy) (s : State) : Action → Bool
  | .reconcile k (.apply now _) =>
      match s.reconciles[k]? with
      | some ⟨id, .resolving answer⟩ =>
          decide (answer.status ≠ .notFound) || s.store.db.transfers.all fun t =>
            decide (t.id ≠ id) ||
              (fitsDatetime (t.createdAt + policy.notFoundGrace) &&
                decide (now < t.createdAt + policy.notFoundGrace) &&
                fitsDatetime (now + policy.backoffBase))
      | _ => true
  | _ => true

theorem notFoundInTime_records {policy : ReconciliationPolicy} {s : State} {a : Action}
    {k : Nat} {now : Time} {t : Transfer} (h : s.notFoundInTime policy a = true)
    (happlies : s.appliesNotFound k now t a) : policy.RecordsNotFound now t s.store.db := by
  obtain ⟨ht, -, wall, answer, rfl, hp, hst, -⟩ := happlies
  simp only [State.notFoundInTime, hp, hst, ne_eq, not_true_eq_false, decide_false,
    Bool.false_or, List.all_eq_true] at h
  obtain ⟨⟨hgrace, hearly⟩, hcheck⟩ := by simpa using h t ht
  exact ⟨hgrace, fun hlate => absurd hearly (not_lt.mpr hlate), fun _ => hcheck⟩

theorem verifiedRun_runs :
    (Runs.run (step sampleConfig) freshState (verifiedRun ++ [.reconcile 1 (.apply 42 42)])).any
      (fun s => s.store.db.transfers.any fun t => decide (t.id = sampleTransferId ∧
        t.verificationAttempts = 1)) = true := by
  decide +kernel

/-- One of the two answers counted, and the other was applied. -/
theorem attempts_counted_verifiedRun :
    ∃ s t, Runs.run (step sampleConfig) freshState
        (verifiedRun ++ [.reconcile 1 (.apply 42 42)]) = some s ∧
      t ∈ s.store.db.transfers ∧ t.verificationAttempts = 1 ∧
      Runs.count (step sampleConfig) (State.commitsInconclusive sampleConfig t.id) freshState
        (verifiedRun ++ [.reconcile 1 (.apply 42 42)]) = 1 ∧
      Runs.AllSteps (step sampleConfig) (fun x a => ∀ x' k now t, step sampleConfig x a = some x' →
        x.appliesNotFound k now t a → NotFoundApplied sampleConfig.policy k now t x') freshState
        (verifiedRun ++ [.reconcile 1 (.apply 42 42)]) := by
  obtain ⟨s, hs, hany⟩ := (Option.any_eq_true _ _).mp verifiedRun_runs
  obtain ⟨t, ht, hdec⟩ := List.any_eq_true.mp hany
  obtain ⟨-, hone⟩ := of_decide_eq_true hdec
  obtain ⟨hcount, happlied⟩ := attempts_counted freshState_initial
    (show 1 ≤ sampleConfig.policy.maxAttempts by decide)
    (show 0 < sampleConfig.policy.backoffBase by decide +kernel) hs
  have hintime : Runs.AllSteps (step sampleConfig)
      (fun x a => x.notFoundInTime sampleConfig.policy a = true) freshState
      (verifiedRun ++ [.reconcile 1 (.apply 42 42)]) := by
    decide +kernel
  refine ⟨s, t, hs, ht, hone, ?_, happlied.mpr ?_⟩
  · have hcount := (hcount t ht).1
    rw [hone] at hcount
    exact_mod_cast hcount.symm
  · refine Runs.allSteps_mono (fun x a h k now t happlies => ?_) hintime
    exact notFoundInTime_records h happlies

/-- The defaults, with a wait of 31,700 years between two checks. -/
def distantSettings : Settings :=
  { reconciliationBackoffBaseSeconds := 1000000000000 }

/-- The partner does not answer the credit in time, and at the first check has not seen
it. -/
def earlyCheck : List Action :=
  submittedRun ++
    [.request 0 (.call 5), .request 0 (.answer ⟨.unknown, "timeout", true, none, none, 3⟩),
      .request 0 (.outcome 13 13), .startReconcile sampleTransferId, .reconcile 0 .snapshot,
      .reconcile 0 (.decide 23), .reconcile 0 (.status creditNotFound)]

/-- The answer a reconcile is about to apply. -/
def ReconcilePc.answer? : ReconcilePc → Option PartnerStatusResult
  | .resolving answer => some answer
  | _ => none

theorem answer?_eq_some {pc : ReconcilePc} {answer : PartnerStatusResult}
    (h : pc.answer? = some answer) : pc = .resolving answer := by
  cases pc with
  | resolving => cases h; rfl
  | _ => cases h

theorem earlyCheck_runs :
    (Runs.run (step (distantSettings.config sampleSha256)) freshState earlyCheck).any (fun s =>
      (s.store.db.transfers.any fun t => decide (t.id = sampleTransferId ∧
        t.status = .pendingVerification ∧ t.createdAt = 5 ∧ t.nextVerificationAt = some 23)) &&
      ((s.reconciles[0]?).any fun p => decide (p.transferId = sampleTransferId) &&
        decide (p.pc.answer? = some creditNotFound)) &&
      (step (distantSettings.config sampleSha256) s (.reconcile 0 (.apply 31 31))).isSome &&
      !((applyStatus distantSettings.policy 31 31 sampleTransferId creditNotFound).run
        s.store.db).isOk) = true := by
  decide +kernel

/-- The answer is applied inside the grace, and no check after it is scheduled. -/
theorem notFound_overflows :
    distantSettings.Accepted ∧ (ReconciliationPolicy.fromSettings distantSettings).isOk = true ∧
      ∃ s t s', Runs.run (step (distantSettings.config sampleSha256)) freshState earlyCheck =
          some s ∧
        s.appliesNotFound 0 31 t (.reconcile 0 (.apply 31 31)) ∧
        31 < t.createdAt + distantSettings.policy.notFoundGrace ∧
        step (distantSettings.config sampleSha256) s (.reconcile 0 (.apply 31 31)) = some s' ∧
        s'.store.db = s.store.db ∧ t.nextVerificationAt = some 23 ∧
        ¬ NotFoundApplied distantSettings.policy 0 31 t s' := by
  refine ⟨⟨by decide +kernel, by decide +kernel⟩, by decide +kernel, ?_⟩
  obtain ⟨s, hs, hany⟩ := (Option.any_eq_true _ _).mp earlyCheck_runs
  simp only [Bool.and_eq_true, Bool.not_eq_true'] at hany
  obtain ⟨⟨⟨hrow, hanswer⟩, happlied⟩, hraises⟩ := hany
  obtain ⟨t, ht, hdec⟩ := List.any_eq_true.mp hrow
  obtain ⟨hid, hst, hcreated, hnext⟩ := of_decide_eq_true hdec
  obtain ⟨⟨id, pc⟩, hp, hpc⟩ := (Option.any_eq_true _ _).mp hanswer
  obtain ⟨hpid, hpc⟩ := Bool.and_eq_true_iff.mp hpc
  obtain rfl : id = sampleTransferId := of_decide_eq_true hpid
  obtain rfl := answer?_eq_some (of_decide_eq_true hpc)
  obtain ⟨s', hs'⟩ := Option.isSome_iff_exists.mp happlied
  rcases apply_inv hp hs' with ⟨r, hrun, -⟩ | ⟨f, -, hdb, hpc'⟩
  · have hrun : (applyStatus distantSettings.policy 31 31 sampleTransferId creditNotFound).run
        s.store.db = .ok (r, s'.store.db) := hrun
    rw [hrun] at hraises
    cases hraises
  · refine ⟨s, t, s', hs, ⟨ht, .inr hst, 31, creditNotFound, rfl, ?_, rfl, by decide⟩, ?_, hs', hdb,
      hnext, ?_⟩
    · rw [hid]
      exact hp
    · rw [hcreated]
      decide +kernel
    · rintro ⟨⟨r, hr⟩, -⟩
      rw [hid] at hr
      cases hpc'.symm.trans hr

/-! ## How long the backoff can double

`backoff` doubles in full before it takes the minimum with `backoff_max`, and the product
is a `timedelta`. -/

/-- `backoff` returns the capped delay for every count that is not the last. -/
def ReconciliationPolicy.backsOff (policy : ReconciliationPolicy) : Prop :=
  ∀ attempts : Int, 1 ≤ attempts → attempts < policy.maxAttempts →
    policy.backoff attempts =
      .ok (min policy.backoffMax (policy.backoffBase * 2 ^ (attempts - 1).toNat))

/-- The delay after the last check but one is a `timedelta`. -/
def ReconciliationPolicy.doublesWithin (policy : ReconciliationPolicy) : Prop :=
  policy.maxAttempts ≤ 1 ∨
    policy.backoffBase * 2 ^ (policy.maxAttempts - 2).toNat < timedeltaLimit

section

variable {policy : ReconciliationPolicy} {attempts : Int}

theorem backoff_of_lt
    (h : policy.backoffBase * 2 ^ (attempts - 1).toNat < timedeltaLimit) :
    policy.backoff attempts =
      .ok (min policy.backoffMax (policy.backoffBase * 2 ^ (attempts - 1).toNat)) := by
  simp only [ReconciliationPolicy.backoff, if_neg (not_le.mpr h)]

/-- The delays double, so the last of them is the one that matters. -/
theorem ReconciliationPolicy.doublesWithin.delay_lt (h : policy.doublesWithin)
    (hbase : 0 < policy.backoffBase) (hpos : 1 ≤ attempts) (hlt : attempts < policy.maxAttempts) :
    policy.backoffBase * 2 ^ (attempts - 1).toNat < timedeltaLimit := by
  rcases h with hone | hlast
  · omega
  · have hexp : (attempts - 1).toNat ≤ (policy.maxAttempts - 2).toNat := by omega
    have hpow : (2 : Time) ^ (attempts - 1).toNat ≤ 2 ^ (policy.maxAttempts - 2).toNat :=
      pow_le_pow_right₀ one_le_two hexp
    exact (mul_le_mul_of_nonneg_left hpow hbase.le).trans_lt hlast

theorem backsOff_iff (hbase : 0 < policy.backoffBase) :
    policy.backsOff ↔ policy.doublesWithin := by
  constructor
  · intro h
    by_cases hone : policy.maxAttempts ≤ 1
    · exact .inl hone
    · have hlast := h (policy.maxAttempts - 1) (by omega) (by omega)
      refine .inr (not_le.mp fun hover => ?_)
      have hexp : policy.maxAttempts - 1 - 1 = policy.maxAttempts - 2 := by omega
      rw [ReconciliationPolicy.backoff, hexp, if_pos hover] at hlast
      cases hlast
  · intro h n hpos hlt
    exact backoff_of_lt (h.delay_lt hbase hpos hlt)

/-- From instants up to `latest`, the delay after the last check but one leads to a
`datetime`. -/
def ReconciliationPolicy.schedulesWithin (policy : ReconciliationPolicy) (latest : Time) : Prop :=
  policy.maxAttempts ≤ 1 ∨
    policy.backoffBase * 2 ^ (policy.maxAttempts - 2).toNat < timedeltaLimit ∧
      latest + min policy.backoffMax
        (policy.backoffBase * 2 ^ (policy.maxAttempts - 2).toNat) < datetimeEnd

theorem ReconciliationPolicy.schedulesWithin.doublesWithin {latest : Time}
    (h : policy.schedulesWithin latest) : policy.doublesWithin := h.imp_right And.left

/-- Within it every check of an unresolved transfer can be counted: a base of a second
or more doubles fewer than 47 times, so the column holds every count. -/
theorem ReconciliationPolicy.schedulesWithin.countsOn {now latest : Time}
    (h : policy.schedulesWithin latest) (hnow : fitsDatetime now = true) (hle : now ≤ latest)
    (hbase : 1 ≤ policy.backoffBase) (hcap : 0 ≤ policy.backoffMax) (hpos : 0 ≤ attempts)
    (hlt : attempts < policy.maxAttempts) : policy.countsOn now attempts := by
  have hfew : policy.maxAttempts ≤ 49 := by
    rcases h with hone | ⟨hlast, -⟩
    · omega
    · by_contra hmany
      have hexp : 47 ≤ (policy.maxAttempts - 2).toNat := by omega
      have hpow : (2 : Time) ^ 47 ≤ 2 ^ (policy.maxAttempts - 2).toNat :=
        pow_le_pow_right₀ one_le_two hexp
      have hover := mul_le_mul hbase hpow (by positivity) (zero_le_one.trans hbase)
      rw [timedeltaLimit] at hlast
      linarith
  refine ⟨by simp only [maxInteger]; omega, ?_⟩
  by_cases hlast : policy.maxAttempts ≤ attempts + 1
  · exact .inl hlast
  · have hdelay : policy.backoffBase * 2 ^ (attempts + 1 - 1).toNat < timedeltaLimit :=
      h.doublesWithin.delay_lt (zero_lt_one.trans_le hbase) (by omega) (by omega)
    rw [add_sub_cancel_right] at hdelay
    have hlater := (h.resolve_left (by omega)).2
    have hbase : 0 ≤ policy.backoffBase := zero_le_one.trans hbase
    have hpow : (2 : Time) ^ attempts.toNat ≤ 2 ^ (policy.maxAttempts - 2).toNat :=
      pow_le_pow_right₀ one_le_two (by omega)
    have hdelays := min_le_min_left policy.backoffMax (mul_le_mul_of_nonneg_left hpow hbase)
    have hnonneg : 0 ≤ min policy.backoffMax (policy.backoffBase * 2 ^ attempts.toNat) :=
      le_min hcap (by positivity)
    refine .inr ⟨hdelay, fitsDatetime_iff.mpr ⟨?_, ?_⟩⟩
    · linarith [(fitsDatetime_iff.mp hnow).1]
    · linarith

end

/-! ### Checks of an unreachable partner -/

/-- An answer of a partner that cannot be asked, in text that can be stored. -/
def PartnerStatusResult.unreachable (answer : PartnerStatusResult) : Prop :=
  answer.inconclusive = true ∧ '\x00' ∉ answer.reason.toList

/-- No check got through before its timeout. -/
def timedOutCheck : PartnerStatusResult := ⟨.unknown, "timeout", true, none, none, 3⟩

theorem timedOutCheck_unreachable : timedOutCheck.unreachable := ⟨by decide, by decide⟩

/-- One check of transfer `id` that is recorded: the moment, the server's clock and the
answer. -/
def check (policy : ReconciliationPolicy) (id : String) (db : Database)
    (c : Time × Time × PartnerStatusResult) : Option Database :=
  ((applyStatus policy c.1 c.2.1 id c.2.2).run db).toOption.map Prod.snd

section

variable {policy : ReconciliationPolicy} {now wall latest : Time} {db db' : Database}
  {t : Transfer} {answer : PartnerStatusResult} {r : ReconcileResult}

/-- A check that can be counted is recorded, and counts. -/
theorem unreachable_recorded (ht : db.transfer? t.id = some t) (hvalid : t.Valid)
    (hv : t.status ∈ verifiableStatuses) (hcounts : policy.countsOn now t.verificationAttempts)
    (hanswer : answer.unreachable) (wall : Time) :
    ∃ r db' t', (applyStatus policy now wall t.id answer).run db = .ok (r, db') ∧
      db'.transfer? t.id = some t' ∧ StatusRecorded policy now t answer r t' := by
  obtain ⟨hopen, hreason⟩ := hanswer
  obtain ⟨r, db', _, hrun, -⟩ := (retryOrEscalate_resolves_iff ht hvalid hv policy now wall
    (statusMetadata_fits t hreason)).mpr hcounts
  obtain ⟨t', events, moment, rfl, hrec⟩ :=
    (retryOrEscalate_run hv hopen hrun).saved_of_inconclusive hopen
  refine ⟨r, saved db t' events moment, t', ?_, transfer?_saved_self rfl ht hrec.id_eq, hrec⟩
  rw [applyStatus, lockTransfer_bind ht, if_neg (not_not.mpr hv), recordStatus_inconclusive hopen]
  exact hrun

/-- A check that is recorded could be counted. -/
theorem unreachable_counted (ht : db.transfer? t.id = some t) (hvalid : t.Valid)
    (hv : t.status ∈ verifiableStatuses) (hanswer : answer.unreachable)
    (hrun : (applyStatus policy now wall t.id answer).run db = .ok (r, db')) :
    policy.countsOn now t.verificationAttempts ∧
      ∃ t', db'.transfer? t.id = some t' ∧ StatusRecorded policy now t answer r t' := by
  obtain ⟨hopen, hreason⟩ := hanswer
  rw [applyStatus, lockTransfer_bind ht, if_neg (not_not.mpr hv),
    recordStatus_inconclusive hopen] at hrun
  obtain ⟨t', events, moment, rfl, hrec⟩ :=
    (retryOrEscalate_run hv hopen hrun).saved_of_inconclusive hopen
  have ht' : (saved db t' events moment).transfer? t.id = some t' :=
    transfer?_saved_self rfl ht hrec.id_eq
  exact ⟨(retryOrEscalate_resolves_iff ht hvalid hv policy now wall
    (statusMetadata_fits t hreason)).mp ⟨r, _, t', hrun, ht', hrec.leaves_status⟩, t', ht', hrec⟩

/-- As many checks as are left hand the transfer over. -/
theorem checks_exhaust {checks : List (Time × Time × PartnerStatusResult)}
    (ht : db.transfer? t.id = some t) (hvalid : t.Valid) (hv : t.status ∈ verifiableStatuses)
    (hcounts : ∀ c ∈ checks, ∀ n, t.verificationAttempts ≤ n → n < policy.maxAttempts →
      policy.countsOn c.1 n)
    (hanswers : ∀ c ∈ checks, c.2.2.unreachable)
    (hless : t.verificationAttempts < policy.maxAttempts)
    (hleft : t.verificationAttempts + checks.length = policy.maxAttempts) :
    ∃ db' t', Runs.run (check policy t.id) db checks = some db' ∧
      db'.transfer? t.id = some t' ∧ t'.status = .manualReview := by
  -- one check at a time; the invariant is that the rest of the checks is what is left
  induction checks generalizing db t with
  | nil =>
      rw [List.length_nil, Nat.cast_zero, add_zero] at hleft
      exact absurd hleft hless.ne
  | cons c cs ih =>
      obtain ⟨now, wall, answer⟩ := c
      have hanswer := hanswers _ (List.mem_cons_self ..)
      have hcount := hcounts _ (List.mem_cons_self ..) _ le_rfl hless
      obtain ⟨r, db₁, t₁, hrun, ht₁, hrec⟩ :=
        unreachable_recorded ht hvalid hv hcount hanswer wall
      have hcheck : check policy t.id db (now, wall, answer) = some db₁ := by
        simp only [check, hrun, Except.toOption, Option.map_some]
      rw [List.length_cons, Nat.cast_succ] at hleft
      cases hrec with
      | settled hst hconf => exact absurd hconf ((inconclusive_iff.mp hanswer.1).2 _ hst)
      | reversed hst => exact absurd hst (inconclusive_iff.mp hanswer.1).1
      | early hst => exact absurd hst (inconclusive_iff.mp hanswer.1).1
      | counted _ hmore _ =>
          obtain ⟨db', t', hruns, ht', hover⟩ := ih ht₁ (hvalid.counted hv hcount.1 _)
            (List.mem_cons_of_mem _ (List.mem_cons_self ..))
            (fun c hc n hn hlt => hcounts c (List.mem_cons_of_mem _ hc) n
              ((lt_add_one _).le.trans hn) hlt)
            (fun c hc => hanswers c (List.mem_cons_of_mem _ hc)) hmore
            (by simp only [Transfer.counted]; omega)
          exact ⟨db', t', Runs.run_cons_eq_some.mpr ⟨db₁, hcheck, hruns⟩, ht', hover⟩
      | exhausted _ hlast =>
          have hnil : cs = [] := List.length_eq_zero_iff.mp (by omega)
          subst hnil
          exact ⟨db₁, _, Runs.run_cons_eq_some.mpr ⟨db₁, hcheck, rfl⟩, ht₁, rfl⟩

/-- If as many checks at `latest` as are left are recorded, two or more, the delay after
the last but one led to a `datetime`. -/
theorem checks_schedule {checks : List (Time × Time × PartnerStatusResult)}
    (ht : db.transfer? t.id = some t) (hvalid : t.Valid) (hv : t.status ∈ verifiableStatuses)
    (hlatest : ∀ c ∈ checks, c.1 = latest) (hanswers : ∀ c ∈ checks, c.2.2.unreachable)
    (hleft : t.verificationAttempts + checks.length = policy.maxAttempts)
    (htwo : 2 ≤ checks.length) (hrun : Runs.run (check policy t.id) db checks = some db') :
    fitsDatetime (latest + min policy.backoffMax
      (policy.backoffBase * 2 ^ (policy.maxAttempts - 2).toNat)) = true := by
  -- the check that leaves one is the one that schedules by this delay
  induction checks generalizing db t with
  | nil => cases htwo
  | cons c cs ih =>
      obtain ⟨now, wall, answer⟩ := c
      obtain ⟨db₁, hcheck, hruns⟩ := Runs.run_cons_eq_some.mp hrun
      obtain rfl : now = latest := hlatest _ (List.mem_cons_self ..)
      have hanswer := hanswers _ (List.mem_cons_self ..)
      obtain ⟨⟨r, db₂⟩, happlied, rfl⟩ := Option.map_eq_some_iff.mp hcheck
      have happlied : (applyStatus policy now wall t.id answer).run db = .ok (r, db₂) := by
        cases hres : (applyStatus policy now wall t.id answer).run db with
        | error f => rw [hres] at happlied; cases happlied
        | ok p =>
            rw [hres] at happlied
            cases happlied
            rfl
      obtain ⟨hcounts, t₁, ht₁, hrec⟩ := unreachable_counted ht hvalid hv hanswer happlied
      rw [List.length_cons] at htwo
      rw [List.length_cons, Nat.cast_succ] at hleft
      have hmore : ¬ policy.maxAttempts ≤ t.verificationAttempts + 1 := by omega
      by_cases hlast : cs.length = 1
      · have hattempts : t.verificationAttempts = policy.maxAttempts - 2 := by omega
        have hcheck := (hcounts.2.resolve_left hmore).2
        rwa [hattempts] at hcheck
      · cases hrec with
        | settled hst hconf => exact absurd hconf ((inconclusive_iff.mp hanswer.1).2 _ hst)
        | reversed hst => exact absurd hst (inconclusive_iff.mp hanswer.1).1
        | early hst => exact absurd hst (inconclusive_iff.mp hanswer.1).1
        | exhausted _ hover => exact absurd hover hmore
        | counted =>
            exact ih ht₁ (hvalid.counted hv hcounts.1 _)
              (List.mem_cons_of_mem _ (List.mem_cons_self ..))
              (fun c hc => hlatest c (List.mem_cons_of_mem _ hc))
              (fun c hc => hanswers c (List.mem_cons_of_mem _ hc))
              (by simp only [Transfer.counted]; omega) (by omega) hruns

end

/-! ### A transfer under any settings -/

/-- A deployment that transfers single points. -/
def modestState : State :=
  ⟨⟨{ seedDb with
      conversionRates := [⟨1, 1, 3, 1, 1, 1, 1, none, 1, 0, none, true⟩]
      transferBonuses := [] }, ⟨[], 1⟩, [], []⟩, [], []⟩

theorem modestState_initial : Initial modestState where
  seeded := { seedDb_seeded with }
  keys := rfl
  creditCalls := rfl
  attempts := rfl
  requests := rfl
  reconciles := rfl

def modestBody : TransferRequest := ⟨"NOVA_REWARDS", "SKYWARD_MILES", 1⟩

theorem openTransfer_within {limit : Int} {now createdAt : Time} {transferId userId key : String}
    {request : TransferRequest} (h : request.sourcePoints ≤ limit) :
    openTransfer (some limit) now createdAt transferId userId request key =
      openTransfer none now createdAt transferId userId request key := by
  simp only [openTransfer, ensureWithinPlatformLimit, not_lt.mpr h, if_false]

theorem modestBody_transfers :
    (((openTransfer none 5 5 sampleTransferId "user_alice" modestBody "key-1" >>= fun d =>
      markSubmitted 5 d.transferId d.partnerCode).run modestState.store.db).toOption.any fun p =>
        p.2.transfers.any fun t => decide (t.status = .partnerSubmitted ∧
          t.verificationAttempts = 0)) = true := by
  decide +kernel

/-- Whatever the settings, some run leaves a transfer with its partner, not checked yet. -/
theorem submitted_reachable {cfg : Config} {limit : Int} (hcfg : cfg.maxTransferPoints = some limit)
    (hlimit : 1 ≤ limit) :
    ∃ s as t, Runs.run (step cfg) modestState as = some s ∧ t ∈ s.store.db.transfers ∧
      t.status = .partnerSubmitted ∧ t.verificationAttempts = 0 := by
  -- the request claims its key
  have hadmissible : admissible modestState.store.db "user_alice" "key-1" modestBody = true := by
    decide +kernel
  have hadmitted : ∃ record keys, Runs.run (step cfg) modestState
      (admission 0 "user_alice" "key-1" modestBody 5) =
        some ⟨⟨modestState.store.db, keys, [], []⟩,
          [⟨"user_alice", "key-1", modestBody, .admitted record⟩], []⟩ :=
    ⟨_, _, Runs.run_cons_eq_some.mpr ⟨_, if_pos hadmissible, rfl⟩⟩
  obtain ⟨record, keys, hadmitted⟩ := hadmitted
  -- its debit and its submission, which no setting but the limit touches
  obtain ⟨⟨_, db₂⟩, hboth, hrow⟩ := (Option.any_eq_true _ _).mp modestBody_transfers
  obtain ⟨t, ht, hdec⟩ := List.any_eq_true.mp hrow
  obtain ⟨hst, hzero⟩ := of_decide_eq_true hdec
  obtain ⟨d, db₁, hdebit, hsubmit⟩ := Tx.bind_ok.mp (toOption_eq_some.mp hboth)
  rw [← openTransfer_within (show modestBody.sourcePoints ≤ limit from hlimit), ← hcfg] at hdebit
  refine ⟨⟨⟨db₂, keys, [], []⟩, [⟨"user_alice", "key-1", modestBody, .submitted record d⟩], []⟩,
    admission 0 "user_alice" "key-1" modestBody 5 ++
      [.request 0 (.debit 5 5 sampleTransferId), .request 0 (.submit 5)], t,
    Runs.run_append.mpr ⟨_, hadmitted, ?_⟩, ht, hst, hzero⟩
  simp only [Runs.run, step, requestStep, afterDebit, afterTx, Tx.commit_ok hdebit,
    Tx.commit_ok hsubmit, List.getElem?_cons_zero, List.set_cons_zero, Option.map_some,
    Option.bind_some]

/-! ### Under accepted settings -/

section

variable {settings : Settings} {sha256 : String → String} {s₀ s : State} {as : List Action}
  {t : Transfer}

theorem Settings.Accepted.base_ge_one (h : settings.Accepted) :
    1 ≤ settings.policy.backoffBase := by
  obtain ⟨-, -, -, -, -, -, -, -, -, -, -, -, -, -, -, hbase, -⟩ := h.positive
  show (1 : Time) ≤ settings.reconciliationBackoffBaseSeconds
  exact_mod_cast hbase

theorem Settings.Accepted.cap_nonneg (h : settings.Accepted) :
    0 ≤ settings.policy.backoffMax := by
  obtain ⟨-, -, -, -, -, -, -, -, -, -, -, -, -, -, -, -, hcap⟩ := h.positive
  show (0 : Time) ≤ settings.reconciliationBackoffMaxSeconds
  exact_mod_cast hcap.le

theorem Settings.Accepted.one_le_maxAttempts (h : settings.Accepted) :
    1 ≤ settings.policy.maxAttempts := by
  obtain ⟨-, -, -, -, -, -, -, -, -, -, -, -, -, -, hmax, -⟩ := h.positive
  exact hmax

theorem Settings.Accepted.one_le_maxTransferPoints (h : settings.Accepted) :
    1 ≤ settings.maxTransferPoints := by
  obtain ⟨-, -, -, -, -, -, -, -, hlimit, -⟩ := h.positive
  exact hlimit

/-- In every reachable state an unresolved transfer has a check left. -/
theorem run_unresolved_less {cfg : Config} (h₀ : Initial s₀) (hmax : 1 ≤ cfg.policy.maxAttempts)
    (h : Runs.run (step cfg) s₀ as = some s) (ht : s.store.db.transfer? t.id = some t)
    (hv : t.status ∈ verifiableStatuses) :
    0 ≤ t.verificationAttempts ∧ t.verificationAttempts < cfg.policy.maxAttempts := by
  have hcounted := run_counted h₀ hmax h t.id
  rw [hcounted.attempts t ht]
  refine ⟨Int.natCast_nonneg _, lt_of_le_of_ne hcounted.limit fun heq => ?_⟩
  exact verifiable_not_manualReview hv ((hcounted.handedOver t ht).mpr heq)

/-- For the policy of accepted settings and checks made at instants up to `latest`: the
backoff of every count below `max_attempts` is the capped one, every check of an
unreachable partner commits its count, and as many as are left hand the transfer over,
exactly when the delay before the last check is a `timedelta` and leads, from `latest`,
to a `datetime`. -/
theorem backoff_capped_iff {policy : ReconciliationPolicy} (hset : settings.Accepted)
    (hpolicy : ReconciliationPolicy.fromSettings settings = .ok policy) (sha256 : String → String)
    {latest : Time} (hlatest : fitsDatetime latest = true) :
    ((∀ attempts : Int, 1 ≤ attempts → attempts < policy.maxAttempts →
        policy.backoff attempts =
          .ok (min policy.backoffMax (policy.backoffBase * 2 ^ (attempts - 1).toNat))) ∧
      ∀ (s₀ s : State) (as : List Action) (t : Transfer), Initial s₀ →
        Runs.run (step (settings.config sha256)) s₀ as = some s → t ∈ s.store.db.transfers →
        t.status = .partnerSubmitted ∨ t.status = .pendingVerification →
        (∀ (now wall : Time) (answer : PartnerStatusResult), fitsDatetime now = true →
          now ≤ latest → answer.unreachable →
          ∃ r db' t', (applyStatus policy now wall t.id answer).run s.store.db = .ok (r, db') ∧
            db'.transfer? t.id = some t' ∧
            t'.verificationAttempts = t.verificationAttempts + 1) ∧
        ∀ checks : List (Time × Time × PartnerStatusResult),
          (∀ c ∈ checks, fitsDatetime c.1 = true ∧ c.1 ≤ latest ∧ c.2.2.unreachable) →
          t.verificationAttempts + checks.length = policy.maxAttempts →
          ∃ db' t', Runs.run (check policy t.id) s.store.db checks = some db' ∧
            db'.transfer? t.id = some t' ∧ t'.status = .manualReview) ↔
      settings.reconciliationMaxAttempts ≤ 1 ∨
        settings.reconciliationBackoffBaseSeconds *
            2 ^ (settings.reconciliationMaxAttempts - 2).toNat < timedeltaLimit ∧
          latest + min (settings.reconciliationBackoffMaxSeconds : Time)
            (settings.reconciliationBackoffBaseSeconds *
              2 ^ (settings.reconciliationMaxAttempts - 2).toNat) < datetimeEnd := by
  obtain rfl := fromSettings_ok hpolicy
  have hone := hset.base_ge_one
  have hbacksOff := backsOff_iff (zero_lt_one.trans_le hone)
  constructor
  · rintro ⟨hbackoff, hchecks⟩
    by_cases hmax : settings.policy.maxAttempts ≤ 1
    · exact .inl hmax
    · refine .inr ⟨(hbacksOff.mp hbackoff).resolve_left hmax, ?_⟩
      obtain ⟨s, as, t, hrun, ht, hst, hzero⟩ :=
        submitted_reachable (show (settings.config sha256).maxTransferPoints = some _ from rfl)
          hset.one_le_maxTransferPoints
      obtain ⟨hsound, haudited⟩ := run_audited modestState_initial hrun
      have hnat : ((settings.policy.maxAttempts.toNat : Nat) : Int) =
          settings.policy.maxAttempts := Int.toNat_of_nonneg (by omega)
      obtain ⟨db', -, hall, -⟩ := (hchecks modestState s as t modestState_initial hrun ht
        (.inl hst)).2 (List.replicate settings.policy.maxAttempts.toNat
          (latest, latest, timedOutCheck))
        (fun c hc => by
          rw [List.eq_of_mem_replicate hc]
          exact ⟨hlatest, le_rfl, timedOutCheck_unreachable⟩)
        (by rw [hzero, List.length_replicate, hnat, zero_add])
      have hfits := checks_schedule (Table.lookup_of_mem hsound.transferIds ht)
        (haudited.valid t ht) (by simp [hst, verifiableStatuses])
        (fun c hc => by rw [List.eq_of_mem_replicate hc])
        (fun c hc => by
          rw [List.eq_of_mem_replicate hc]
          exact timedOutCheck_unreachable)
        (by rw [hzero, List.length_replicate, hnat, zero_add])
        (by rw [List.length_replicate]; omega) hall
      exact (fitsDatetime_iff.mp hfits).2
  · intro hwithin
    have hwithin : settings.policy.schedulesWithin latest := hwithin
    refine ⟨hbacksOff.mpr hwithin.doublesWithin, ?_⟩
    intro s₀ s as t h₀ h ht hst
    have hv : t.status ∈ verifiableStatuses := by simpa [verifiableStatuses] using hst
    obtain ⟨hsound, haudited⟩ := run_audited h₀ h
    have hrow := Table.lookup_of_mem hsound.transferIds ht
    have hvalid := haudited.valid t ht
    obtain ⟨hnonneg, hless⟩ := run_unresolved_less h₀ hset.one_le_maxAttempts h hrow hv
    have hcounts : ∀ now, fitsDatetime now = true → now ≤ latest → ∀ n,
        t.verificationAttempts ≤ n → n < settings.policy.maxAttempts →
        settings.policy.countsOn now n := by
      intro now hnow hle n hn hlt
      exact hwithin.countsOn hnow hle hone hset.cap_nonneg (hnonneg.trans hn) hlt
    constructor
    · intro now wall answer hnow hle hanswer
      obtain ⟨r, db', t', hrun, ht', hrec⟩ :=
        unreachable_recorded hrow hvalid hv (hcounts now hnow hle _ le_rfl hless) hanswer wall
      refine ⟨r, db', t', hrun, ht', ?_⟩
      rw [hrec.counts.1, hanswer.1]
      rfl
    · intro checks hanswers hleft
      exact checks_exhaust hrow hvalid hv
        (fun c hc => hcounts c.1 (hanswers c hc).1 (hanswers c hc).2.1)
        (fun c hc => (hanswers c hc).2.2) hless hleft

/-- With the defaults the longest delay is 80 seconds. -/
theorem backoff_capped_iff_defaults :
    ({} : Settings).policy.backoff 4 = .ok 80 ∧
      ∃ s t db' t', Runs.run (step sampleConfig) freshState submittedRun = some s ∧
        t ∈ s.store.db.transfers ∧
        Runs.run (check ({} : Settings).policy t.id) s.store.db
          (List.replicate 5 (90, 90, timedOutCheck)) = some db' ∧
        db'.transfer? t.id = some t' ∧ t'.status = .manualReview := by
  have hninety : fitsDatetime 90 = true := by decide +kernel
  obtain ⟨hbackoff, hchecks⟩ :=
    (backoff_capped_iff defaults_accepted defaults_policy sampleSha256 hninety).mpr
      (.inr (by decide +kernel))
  refine ⟨?_, ?_⟩
  · rw [hbackoff 4 (by decide) (by decide)]
    exact congrArg Except.ok (by decide +kernel)
  · have hany : (Runs.run (step sampleConfig) freshState submittedRun).any (fun s =>
        s.store.db.transfers.any fun t => decide (t.status = .partnerSubmitted ∧
          t.verificationAttempts = 0)) = true := by
      decide +kernel
    obtain ⟨s, hs, hrow⟩ := (Option.any_eq_true _ _).mp hany
    obtain ⟨t, ht, hdec⟩ := List.any_eq_true.mp hrow
    obtain ⟨hst, hzero⟩ := of_decide_eq_true hdec
    obtain ⟨-, hexhaust⟩ := hchecks freshState s submittedRun t freshState_initial hs ht (.inl hst)
    obtain ⟨db', t', hrun, ht', hover⟩ := hexhaust
      (List.replicate 5 (90, 90, timedOutCheck))
      (fun c hc => by
        rw [List.eq_of_mem_replicate hc]
        exact ⟨by decide +kernel, le_rfl, timedOutCheck_unreachable⟩)
      (by rw [hzero]; rfl)
    exact ⟨s, t, db', t', hs, ht, hrun, ht', hover⟩

/-! ### When a delay overflows -/

/-- Below the count whose backoff raises, and so not handed over. -/
def BelowLast (policy : ReconciliationPolicy) (row : Option Transfer) : Prop :=
  ∀ t, row = some t →
    t.verificationAttempts + 1 < policy.maxAttempts ∧ t.status ≠ .manualReview

theorem BelowLast.step {policy : ReconciliationPolicy} {row row' : Option Transfer}
    {counts : Bool} (hover : ¬ policy.doublesWithin) (h : BelowLast policy row)
    (hmove : RowMove policy row counts row') : BelowLast policy row' := by
  obtain ⟨hmax, hlimit⟩ := not_or.mp hover
  cases hmove with
  | absent => exact h
  | opened hzero hs =>
      rintro _ ⟨rfl⟩
      rw [hzero, hs]
      exact ⟨by omega, by simp⟩
  | @same t t' hsame =>
      rintro _ ⟨rfl⟩
      obtain ⟨hless, hne⟩ := h t rfl
      exact ⟨by rw [hsame.attempts]; exact hless, mt hsame.handedOver.mp hne⟩
  | @recorded t t' _ _ _ _ hrec =>
      rintro _ ⟨rfl⟩
      obtain ⟨hless, hne⟩ := h t rfl
      cases hrec with
      | settled => exact ⟨hless, by rintro ⟨⟩⟩
      | reversed => exact ⟨hless, by rintro ⟨⟩⟩
      | early => exact ⟨hless, by rintro ⟨⟩⟩
      | counted _ _ hdelay =>
          refine ⟨lt_of_le_of_ne (Int.add_one_le_iff.mpr hless) fun heq => ?_, by rintro ⟨⟩⟩
          -- the delay before the last check is the one that does not fit
          have hexp : t.verificationAttempts = policy.maxAttempts - 2 := by
            simp only [Transfer.counted] at heq
            omega
          have hfits := (backoff_ok.mp hdelay).1
          rw [hexp] at hfits
          exact hlimit hfits
      | exhausted _ hlast => exact absurd hless (not_lt.mpr hlast)

/-- If the delay before the last check overflows, no transfer is ever handed over. -/
theorem never_handed_over {cfg : Config} (hover : ¬ cfg.policy.doublesWithin) (h₀ : Initial s₀)
    (h : Runs.run (step cfg) s₀ as = some s) (ht : t ∈ s.store.db.transfers) :
    t.status ≠ .manualReview := by
  have hI := Runs.run_invariant
    (I := fun x => Sound s₀.store.db x.store.db ∧
      BelowLast cfg.policy (x.store.db.transfer? t.id))
    (fun x a x' hx hstep => ?_) ⟨h₀.seeded.sound, ?_⟩ h
  · exact (hI.2 t (Table.lookup_of_mem hI.1.transferIds ht)).2
  · obtain ⟨hsound, hbelow⟩ := hx
    exact ⟨hsound.step h₀.seeded hstep,
      hbelow.step hover (step_rowMove (hsound.accountIds h₀.seeded) hstep t.id)⟩
  · intro t' ht'
    rw [h₀.transfer?_eq_none] at ht'
    cases ht'

end

/-- The defaults, with more patience. -/
def patientSettings : Settings := { reconciliationMaxAttempts := 50 }

/-- The delay after check 44 would be 600 seconds, and is not computed: nothing reaches
MANUAL_REVIEW. -/
theorem backoff_overflows :
    patientSettings.Accepted ∧ 44 < patientSettings.policy.maxAttempts ∧
      patientSettings.policy.backoff 44 = .error (.runtime "OverflowError") ∧
      ∀ s₀ s as, Initial s₀ →
        Runs.run (step (patientSettings.config sampleSha256)) s₀ as = some s →
        ∀ t ∈ s.store.db.transfers, t.status ≠ .manualReview := by
  refine ⟨⟨by decide +kernel, by decide +kernel⟩, by decide, if_pos (by decide +kernel), ?_⟩
  intro s₀ s as h₀ h t ht
  have hover : ¬ (patientSettings.config sampleSha256).policy.doublesWithin := by
    rintro (hone | hlast)
    · exact absurd hone (by decide)
    · exact absurd hlast (by decide +kernel)
  exact never_handed_over hover h₀ h ht

end LoyaltyTransfer
