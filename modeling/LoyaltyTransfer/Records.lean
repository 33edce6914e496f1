/-
# `LoyaltyTransfer.Records` — what recording an answer of the partner can do

Two transactions record an answer: `_apply_partner_outcome` the answer to the
credit, `_apply` of the reconciler the answer to a status check.  Both lock the
transfer, stop if another actor has moved it on, and otherwise do one of

    settle      the partner has the credit
    reverse     the partner does not have it
    park        nobody knows yet: save the row, with the time of the next check

`OutcomeRun` and `StatusRun` list what such a run can be once it has committed,
with the row it saved and the condition it was taken on.  Everything said later
of a committed recording is a case analysis of one of the two, through
`applyPartnerOutcome_inv`, `applyStatus_inv` and, for the transfer that never
reached the partner, `reverseInterrupted_inv`.
-/
import LoyaltyTransfer.Trail

namespace LoyaltyTransfer

open Transaction

/-! ## Under the row lock -/

section

variable {db db' : Database} {t : Transfer}

theorem transfer?_self {id : String} (h : db.transfer? id = some t) :
    db.transfer? t.id = some t := by
  rw [Table.lookup_key h]
  exact h

/-- Under the row lock, the answer is applied to the row there is. -/
theorem lockTransfer_bind {α : Type} {id : String} (ht : db.transfer? id = some t)
    (f : Transfer → DbTx α) : (lockTransfer id >>= f).run db = (f t).run db := by
  rw [StateT.run_bind, lockTransfer_ok.mpr ⟨ht, rfl⟩]
  rfl

theorem lockTransfer_bind_ok {α : Type} {id : String} {f : Transfer → DbTx α} {a : α}
    (h : (lockTransfer id >>= f).run db = .ok (a, db')) :
    ∃ t, t.id = id ∧ db.transfer? t.id = some t ∧ (f t).run db = .ok (a, db') := by
  obtain ⟨t, _, hlock, hrun⟩ := Tx.bind_ok.mp h
  obtain ⟨ht, rfl⟩ := lockTransfer_ok.mp hlock
  exact ⟨t, Table.lookup_key ht, transfer?_self ht, hrun⟩

theorem bind_pure_ok {α β : Type} {tx : DbTx α} {b c : β} {db db' : Database} :
    (tx >>= fun _ => pure b).run db = .ok (c, db') ↔ (∃ a, tx.run db = .ok (a, db')) ∧ b = c := by
  simp only [Tx.bind_ok, Tx.pure_ok, Prod.mk.injEq]
  constructor
  · rintro ⟨a, _, hrun, hb, rfl⟩
    exact ⟨⟨a, hrun⟩, hb⟩
  · rintro ⟨⟨a, hrun⟩, hb⟩
    exact ⟨a, db', hrun, hb, rfl⟩

end

/-! ## The answer to the credit -/

/-- The row of a transfer whose credit may or may not have been applied. -/
def Transfer.parked (t : Transfer) (now next : Time) : Transfer :=
  ({ t with nextVerificationAt := some next } : Transfer).movedTo .pendingVerification now

/-- What `_apply_partner_outcome` can do with a transfer it found
PARTNER_SUBMITTED. -/
inductive OutcomeRun (verificationDelay now wall : Time) (db : Database) (t : Transfer)
    (result : PartnerCreditResult) : TransferStatus → Database → Prop
  | settled {confirmationId reason : String} {metadata : List (String × Json.Value)}
      {db' : Database} (hout : result.outcome = .success)
      (hconf : nonempty result.confirmationId = some confirmationId)
      (hrun : (settleTransfer wall t confirmationId reason metadata).run db = .ok ((), db')) :
      OutcomeRun verificationDelay now wall db t result .completed db'
  | rejected {message reason : String} {metadata : List (String × Json.Value)} {db' : Database}
      (hout : result.outcome = .rejected)
      (hrun : (reverseTransfer wall t .partnerRejected message reason metadata).run db =
        .ok ((), db')) :
      OutcomeRun verificationDelay now wall db t result .reversed db'
  | unavailable {message reason : String} {metadata : List (String × Json.Value)}
      {db' : Database} (hout : result.outcome = .notSent)
      (hrun : (reverseTransfer wall t .partnerUnavailable message reason metadata).run db =
        .ok ((), db')) :
      OutcomeRun verificationDelay now wall db t result .reversed db'
  | parked {event : TransferEvent} (hrejected : result.outcome ≠ .rejected)
      (hnotSent : result.outcome ≠ .notSent)
      (hunconfirmed : ∀ c, result.outcome = .success → nonempty result.confirmationId ≠ some c)
      (hw : Written (some t.status) (t.parked now (now + verificationDelay)) [event]) :
      OutcomeRun verificationDelay now wall db t result .pendingVerification
        (saved db (t.parked now (now + verificationDelay)) [event] (some now))

section

variable {verificationDelay now wall : Time} {db db' : Database} {t : Transfer}
  {transferId : String} {result : PartnerCreditResult} {status : TransferStatus}

theorem recordOutcome_run
    (h : (recordOutcome verificationDelay now wall t result).run db = .ok (status, db')) :
    OutcomeRun verificationDelay now wall db t result status db' := by
  simp only [recordOutcome] at h
  split at h
  · rename_i hout hconf
    obtain ⟨⟨_, hrun⟩, rfl⟩ := bind_pure_ok.mp h
    exact .settled hout hconf hrun
  · rename_i hout
    obtain ⟨⟨_, hrun⟩, rfl⟩ := bind_pure_ok.mp h
    exact .rejected hout hrun
  · rename_i hout
    obtain ⟨⟨_, hrun⟩, rfl⟩ := bind_pure_ok.mp h
    exact .unavailable hout hrun
  · rename_i hrejected hnotSent hunconfirmed
    simp only [Tx.bind_ok, Tx.ofExcept_ok, dateAdd_ok, transition_ok, saveTransfer_ok,
      Tx.pure_ok] at h
    obtain ⟨_, _, ⟨_, ⟨-, rfl⟩, e₁⟩, _, _, ⟨_, ⟨hall, rfl⟩, e₂⟩, _, _, ⟨hck, -, rfl⟩, e₃⟩ := h
    cases e₁; cases e₂; cases e₃
    refine .parked hrejected hnotSent hunconfirmed
      ⟨checked_iff.mp hck, ?_, leads_single rfl hall, scheduled_waiting rfl rfl⟩
    intro e he
    rw [List.mem_singleton.mp he]
    rfl

theorem applyPartnerOutcome_inv
    (h : (applyPartnerOutcome verificationDelay now wall transferId result).run db =
      .ok (status, db')) :
    ∃ t, t.id = transferId ∧ db.transfer? t.id = some t ∧
      ((t.status ≠ .partnerSubmitted ∧ status = t.status ∧ db' = db) ∨
        (t.status = .partnerSubmitted ∧
          OutcomeRun verificationDelay now wall db t result status db')) := by
  obtain ⟨t, hid, ht, h⟩ := lockTransfer_bind_ok h
  refine ⟨t, hid, ht, ?_⟩
  split at h
  · rename_i hs
    cases Tx.pure_ok.mp h
    exact .inl ⟨hs, rfl, rfl⟩
  · rename_i hs
    exact .inr ⟨not_not.mp hs, recordOutcome_run h⟩

end

/-! ## Before the partner is asked -/

/-- What `_reconcile` decides about a snapshot, and on which condition. -/
inductive Decided (policy : ReconciliationPolicy) (now : Time) (snap : Snapshot) :
    ReconcileDecision → Prop
  | resolved (h : snap.status ∉ stuckStatuses ++ [.pendingVerification]) :
      Decided policy now snap (.answer .alreadyResolved)
  | young (hs : snap.status ∈ stuckStatuses)
      (hfits : fitsDatetime (now + -policy.stuckAfter) = true)
      (hearly : now < snap.createdAt + policy.stuckAfter) :
      Decided policy now snap (.answer .notDue)
  | interrupted (hst : snap.status = .sourceDebited)
      (hfits : fitsDatetime (now + -policy.stuckAfter) = true)
      (hdue : snap.createdAt + policy.stuckAfter ≤ now) :
      Decided policy now snap .reverseInterrupted
  | ask (hv : snap.status ∈ verifiableStatuses)
      (hfits : snap.status ∈ stuckStatuses → fitsDatetime (now + -policy.stuckAfter) = true)
      (hdue : snap.status ∈ stuckStatuses → snap.createdAt + policy.stuckAfter ≤ now) :
      Decided policy now snap .askPartner

theorem tooYoung_ok {policy : ReconciliationPolicy} {now : Time} {snap : Snapshot} {young : Bool} :
    tooYoung policy now snap = .ok young ↔
      (snap.status ∈ stuckStatuses → fitsDatetime (now + -policy.stuckAfter) = true) ∧
        young = decide (snap.status ∈ stuckStatuses ∧
          now < snap.createdAt + policy.stuckAfter) := by
  by_cases hs : snap.status ∈ stuckStatuses
  · by_cases hfits : fitsDatetime (now + -policy.stuckAfter) = true
    · have hwindow : now + -policy.stuckAfter < snap.createdAt ↔
          now < snap.createdAt + policy.stuckAfter := by
        rw [← sub_eq_add_neg, sub_lt_iff_lt_add]
      simp [tooYoung, hs, dateAdd_ok.mpr ⟨hfits, rfl⟩, Except.map, hfits, hwindow,
        eq_comm (a := young)]
    · simp [tooYoung, hs, dateAdd, hfits, Except.map]
  · cases young <;> simp [tooYoung, hs]

theorem reconcileDecision_ok {policy : ReconciliationPolicy} {now : Time} {snap : Snapshot}
    {d : ReconcileDecision} :
    reconcileDecision policy now snap = .ok d ↔ Decided policy now snap d := by
  constructor
  · intro h
    simp only [reconcileDecision] at h
    split at h
    · rename_i hresolved
      cases h
      exact .resolved hresolved
    · rename_i hopen
      cases hyoung : tooYoung policy now snap with
      | error f => rw [hyoung] at h; cases h
      | ok young =>
          rw [hyoung] at h
          obtain ⟨hfits, rfl⟩ := tooYoung_ok.mp hyoung
          simp only [Except.map, decide_eq_true_eq, Except.ok.injEq] at h
          split_ifs at h with hearly hdebited
          · subst h
            exact .young hearly.1 (hfits hearly.1) hearly.2
          · subst h
            have hs : snap.status ∈ stuckStatuses := by simp [hdebited, stuckStatuses]
            exact .interrupted hdebited (hfits hs) (not_lt.mp fun hlt => hearly ⟨hs, hlt⟩)
          · subst h
            refine .ask ?_ hfits fun hs => not_lt.mp fun hlt => hearly ⟨hs, hlt⟩
            cases hst : snap.status <;>
              simp [hst, stuckStatuses, verifiableStatuses] at hopen hdebited ⊢
  · intro h
    cases h with
    | resolved h => simp only [reconcileDecision, if_pos h]
    | young hs hfits hearly =>
        simp [reconcileDecision, tooYoung_ok.mpr ⟨fun _ => hfits, rfl⟩, Except.map, hs, hearly]
    | interrupted hst hfits hdue =>
        simp [reconcileDecision, tooYoung_ok.mpr ⟨fun _ => hfits, rfl⟩, Except.map, hst,
          stuckStatuses, hdue]
    | ask hv hfits hdue =>
        have hopen : ¬ snap.status ∉ stuckStatuses ++ [.pendingVerification] := by
          cases hst : snap.status <;> simp [hst, stuckStatuses, verifiableStatuses] at hv ⊢
        have hst : snap.status ≠ .sourceDebited := by
          rintro hst
          simp [hst, verifiableStatuses] at hv
        have hdue : ¬ (snap.status ∈ stuckStatuses ∧ now < snap.createdAt + policy.stuckAfter) :=
          fun h => absurd (hdue h.1) (not_le.mpr h.2)
        simp only [reconcileDecision, if_neg hopen, tooYoung_ok.mpr ⟨hfits, rfl⟩, Except.map, hdue,
          decide_false, Bool.false_eq_true, if_false, if_neg hst]

/-! ## A transfer that never reached the partner -/

theorem reverseInterrupted_inv {wall : Time} {transferId : String} {r : ReconcileResult}
    {db db' : Database} (h : (reverseInterrupted wall transferId).run db = .ok (r, db')) :
    ∃ t, t.id = transferId ∧ db.transfer? t.id = some t ∧
      ((t.status ≠ .sourceDebited ∧ r = .alreadyResolved ∧ db' = db) ∨
        (t.status = .sourceDebited ∧ r = .reversed ∧ ∃ message reason metadata,
          (reverseTransfer wall t .transferInterrupted message reason metadata).run db =
            .ok ((), db'))) := by
  obtain ⟨t, hid, ht, h⟩ := lockTransfer_bind_ok h
  refine ⟨t, hid, ht, ?_⟩
  split at h
  · rename_i hs
    cases Tx.pure_ok.mp h
    exact .inl ⟨hs, rfl, rfl⟩
  · rename_i hs
    obtain ⟨⟨_, hrun⟩, rfl⟩ := bind_pure_ok.mp h
    exact .inr ⟨not_not.mp hs, rfl, _, _, _, hrun⟩

/-! ## The answer to a status check -/

/-- The row while the outcome is being verified. -/
def Transfer.verifying (t : Transfer) : Transfer := { t with status := .pendingVerification }

/-- The row after one more inconclusive check. -/
def Transfer.counted (t : Transfer) (next : Option Time) : Transfer :=
  { t.verifying with
    verificationAttempts := t.verificationAttempts + 1
    nextVerificationAt := next }

/-- The message of an escalation. -/
def exhaustedMessage (attempts : Int) : String :=
  s!"Partner outcome still unknown after {attempts} " ++
    "verification attempts. Points are held in clearing until an operator resolves " ++
    "the transfer."

/-- The row after the last check, before it is handed over. -/
def Transfer.exhausted (t : Transfer) : Transfer :=
  { t.counted none with
    failureCode := some .verificationExhausted
    failureMessage := some (exhaustedMessage (t.verificationAttempts + 1)) }

/-- UNKNOWN, or COMPLETED without a confirmation id. -/
def PartnerStatusResult.inconclusive (answer : PartnerStatusResult) : Bool :=
  decide (answer.status = .unknown) ||
    (decide (answer.status = .completed) && (nonempty answer.confirmationId).isNone)

/-- An inconclusive answer goes to `_retry_or_escalate`, and no other does. -/
theorem inconclusive_iff {answer : PartnerStatusResult} :
    answer.inconclusive = true ↔ answer.status ≠ .notFound ∧
      ∀ confirmationId, answer.status = .completed →
        nonempty answer.confirmationId ≠ some confirmationId := by
  cases hst : answer.status with
  | completed =>
      cases hconf : nonempty answer.confirmationId <;>
        simp [PartnerStatusResult.inconclusive, hst, hconf]
  | notFound => simp [PartnerStatusResult.inconclusive, hst]
  | unknown => simp [PartnerStatusResult.inconclusive, hst]

/-- What `_apply` can do with a transfer it found verifiable. -/
inductive StatusRun (policy : ReconciliationPolicy) (now wall : Time) (db : Database)
    (t : Transfer) (answer : PartnerStatusResult) : ReconcileResult → Database → Prop
  | settled {confirmationId reason : String} {metadata : List (String × Json.Value)}
      {db' : Database} (hst : answer.status = .completed)
      (hconf : nonempty answer.confirmationId = some confirmationId)
      (hrun : (settleTransfer wall t confirmationId reason metadata).run db = .ok ((), db')) :
      StatusRun policy now wall db t answer .completed db'
  | reversed {message reason : String} {metadata : List (String × Json.Value)} {db' : Database}
      (hst : answer.status = .notFound) (hlate : t.createdAt + policy.notFoundGrace ≤ now)
      (hrun : (reverseTransfer wall t .partnerNotReceived message reason metadata).run db =
        .ok ((), db')) :
      StatusRun policy now wall db t answer .reversed db'
  | early {t' : Transfer} {events : List TransferEvent} {moment : Option Time}
      (hst : answer.status = .notFound)
      (hearly : now < t.createdAt + policy.notFoundGrace)
      (hrow : t' = { t.verifying with
        nextVerificationAt :=
          some (min (now + policy.backoffBase) (t.createdAt + policy.notFoundGrace)) })
      (hw : Written (some t.status) t' events) :
      StatusRun policy now wall db t answer .retryScheduled (saved db t' events moment)
  | counted {delay : Time} {events : List TransferEvent} {moment : Option Time}
      (hopen : answer.inconclusive = true)
      (hmore : t.verificationAttempts + 1 < policy.maxAttempts)
      (hdelay : policy.backoff (t.verificationAttempts + 1) = .ok delay)
      (hw : Written (some t.status) (t.counted (some (now + delay))) events) :
      StatusRun policy now wall db t answer .retryScheduled
        (saved db (t.counted (some (now + delay))) events moment)
  | exhausted {events : List TransferEvent} (hopen : answer.inconclusive = true)
      (hlast : policy.maxAttempts ≤ t.verificationAttempts + 1)
      (hw : Written (some t.status) (t.exhausted.movedTo .manualReview wall) events) :
      StatusRun policy now wall db t answer .manualReview
        (saved db (t.exhausted.movedTo .manualReview wall) events (some wall))

section

variable {policy : ReconciliationPolicy} {now wall : Time} {db db' : Database} {t : Transfer}
  {transferId : String} {answer : PartnerStatusResult} {r : ReconcileResult}
  {metadata : List (String × Json.Value)}

/-- Verifying starts with the move to PENDING_VERIFICATION, or goes on there. -/
theorem startVerifying_run (hv : t.status ∈ verifiableStatuses) (wall : Time)
    (metadata : List (String × Json.Value)) :
    ∃ events moment, startVerifying wall t metadata = .ok (t.verifying, events, moment) ∧
      (∀ e ∈ events, e.metadata = metadata ∧ e.transferId = t.id) ∧
      ∀ clock, Leads (some t.status) (events.map (AuditEvent.insertedAt clock))
        (some .pendingVerification) := by
  simp only [startVerifying]
  by_cases hst : t.status = .partnerSubmitted
  · have hall : .pendingVerification ∈ allowedTransitions t.status := by
      simp [hst, allowedTransitions]
    rw [if_pos hst, transition_ok.mpr ⟨hall, rfl⟩]
    exact ⟨_, _, rfl, by simp, fun clock => leads_single rfl hall⟩
  · have hwaiting : t.status = .pendingVerification := by
      simpa [verifiableStatuses, hst] using hv
    have hsame : t.verifying = t := by rw [Transfer.verifying, ← hwaiting]
    rw [if_neg hst, hsame, hwaiting]
    exact ⟨[], none, rfl, by simp, fun clock => leads_nil _⟩

/-- What is inserted is of the transfer that what was added is of. -/
theorem ids_insertedAt {events : List AuditEvent} {id : String} (clock : Time)
    (h : ∀ e ∈ events, e.transferId = id) :
    ∀ e ∈ events.map (AuditEvent.insertedAt clock), e.transferId = id := by
  intro e he
  obtain ⟨x, hx, rfl⟩ := List.mem_map.mp he
  exact h x hx

theorem recheckAfterGrace_run (hv : t.status ∈ verifiableStatuses)
    (hst : answer.status = .notFound) (hearly : now < t.createdAt + policy.notFoundGrace)
    (h : (recheckAfterGrace policy now wall t metadata
      (t.createdAt + policy.notFoundGrace)).run db = .ok (r, db')) :
    StatusRun policy now wall db t answer r db' := by
  obtain ⟨events, moment, hstart, hevents, hleads⟩ := startVerifying_run hv wall metadata
  simp only [recheckAfterGrace, hstart, Tx.bind_ok, Tx.ofExcept_ok, Except.ok.injEq, dateAdd_ok,
    saveTransfer_ok, Tx.pure_ok] at h
  obtain ⟨_, _, ⟨_, rfl, e₁⟩, _, _, ⟨_, ⟨-, rfl⟩, e₂⟩, _, _, ⟨hck, -, rfl⟩, e₃⟩ := h
  cases e₁; cases e₂; cases e₃
  exact .early hst hearly rfl ⟨checked_iff.mp hck,
    ids_insertedAt _ fun e he => (hevents e he).2, hleads _, scheduled_waiting rfl rfl⟩

theorem retryOrEscalate_run (hv : t.status ∈ verifiableStatuses)
    (hopen : answer.inconclusive = true)
    (h : (retryOrEscalate policy now wall t metadata).run db = .ok (r, db')) :
    StatusRun policy now wall db t answer r db' := by
  obtain ⟨events, moment, hstart, hevents, hleads⟩ := startVerifying_run hv wall metadata
  simp only [retryOrEscalate, hstart, Tx.bind_ok, Tx.ofExcept_ok, Except.ok.injEq] at h
  obtain ⟨p, _, ⟨_, rfl, e⟩, h⟩ := h
  cases e
  split at h
  · rename_i hlast
    simp only [Tx.bind_ok, Tx.ofExcept_ok, transition_ok, saveTransfer_ok, Tx.pure_ok] at h
    obtain ⟨_, _, ⟨_, ⟨hall, rfl⟩, e₁⟩, _, _, ⟨hck, -, rfl⟩, e₂⟩ := h
    cases e₁; cases e₂
    refine .exhausted hopen hlast ⟨checked_iff.mp hck, ids_insertedAt _ ?_, ?_,
      scheduled_closed (by simp [Transfer.movedTo, closedStatuses]) rfl⟩
    · intro e he
      rcases List.mem_append.mp he with he | he
      · exact (hevents e he).2
      · rw [List.mem_singleton.mp he]
        rfl
    · rw [List.map_append]
      exact (hleads _).append (leads_single rfl hall)
  · rename_i hmore
    simp only [Tx.bind_ok, Tx.ofExcept_ok, dateAdd_ok, saveTransfer_ok, Tx.pure_ok] at h
    obtain ⟨delay, _, ⟨_, hdelay, e₁⟩, _, _, ⟨_, ⟨-, rfl⟩, e₂⟩, _, _, ⟨hck, -, rfl⟩, e₃⟩ := h
    cases e₁; cases e₂; cases e₃
    exact .counted hopen (not_le.mp hmore) hdelay ⟨checked_iff.mp hck,
      ids_insertedAt _ fun e he => (hevents e he).2, hleads _, scheduled_waiting rfl rfl⟩

theorem recordStatus_run (hv : t.status ∈ verifiableStatuses)
    (h : (recordStatus policy now wall t answer).run db = .ok (r, db')) :
    StatusRun policy now wall db t answer r db' := by
  simp only [recordStatus] at h
  split at h
  · rename_i hst hconf
    obtain ⟨⟨_, hrun⟩, rfl⟩ := bind_pure_ok.mp h
    exact .settled hst hconf hrun
  · rename_i hst
    obtain ⟨_, _, hdecidable, h⟩ := Tx.bind_ok.mp h
    obtain ⟨_, hdate, e⟩ := Tx.ofExcept_ok.mp hdecidable
    cases e
    obtain ⟨-, rfl⟩ := dateAdd_ok.mp hdate
    split at h
    · rename_i hlate
      obtain ⟨⟨_, hrun⟩, rfl⟩ := bind_pure_ok.mp h
      exact .reversed hst hlate hrun
    · rename_i hearly
      exact recheckAfterGrace_run hv hst (not_le.mp hearly) h
  · rename_i hmissing hunconfirmed
    exact retryOrEscalate_run hv (inconclusive_iff.mpr ⟨hmissing, hunconfirmed⟩) h

theorem applyStatus_inv
    (h : (applyStatus policy now wall transferId answer).run db = .ok (r, db')) :
    ∃ t, t.id = transferId ∧ db.transfer? t.id = some t ∧
      ((t.status ∉ verifiableStatuses ∧ r = .alreadyResolved ∧ db' = db) ∨
        (t.status ∈ verifiableStatuses ∧ StatusRun policy now wall db t answer r db')) := by
  obtain ⟨t, hid, ht, h⟩ := lockTransfer_bind_ok h
  refine ⟨t, hid, ht, ?_⟩
  split at h
  · rename_i hresolved
    cases Tx.pure_ok.mp h
    exact .inl ⟨hresolved, rfl, rfl⟩
  · rename_i hv
    exact .inr ⟨not_not.mp hv, recordStatus_run (not_not.mp hv) h⟩

end

end LoyaltyTransfer
