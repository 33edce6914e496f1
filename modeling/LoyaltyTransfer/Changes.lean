/-
# `LoyaltyTransfer.Changes` — everything a committed transaction can do

Every transaction of the saga, the reconciler and the rate administration
changes the database in one of seven ways, and in no other.  `Change` lists
them with their guards: which status the transfer had, which journal was
posted with the status change, which fields of the row may differ afterwards.
All invariants of the database are proved from this list.

**Proved here.**

    debit                            opened
    submit                           submitted
    outcome, apply                   parked, settled, reversed, or nothing
    reverse interrupted              reversed, or nothing
    claim                            leased
    rate and bonus administration    nothing but rates and bonuses
-/
import LoyaltyTransfer.Records
import LoyaltyTransfer.RateAdmin

namespace LoyaltyTransfer

open Transaction

/-- The terms of a transfer: what stays once it exists. -/
structure SameTerms (t t' : Transfer) : Prop where
  id : t'.id = t.id
  userId : t'.userId = t.userId
  idempotencyKey : t'.idempotencyKey = t.idempotencyKey
  sourceProgramId : t'.sourceProgramId = t.sourceProgramId
  destinationProgramId : t'.destinationProgramId = t.destinationProgramId
  sourceAccountId : t'.sourceAccountId = t.sourceAccountId
  destinationAccountId : t'.destinationAccountId = t.destinationAccountId
  sourcePoints : t'.sourcePoints = t.sourcePoints
  basePoints : t'.basePoints = t.basePoints
  bonusPoints : t'.bonusPoints = t.bonusPoints
  destinationPoints : t'.destinationPoints = t.destinationPoints
  rateId : t'.rateId = t.rateId
  rateSnapshot : t'.rateSnapshot = t.rateSnapshot
  partnerReference : t'.partnerReference = t.partnerReference
  createdAt : t'.createdAt = t.createdAt

theorem SameTerms.refl (t : Transfer) : SameTerms t t :=
  ⟨rfl, rfl, rfl, rfl, rfl, rfl, rfl, rfl, rfl, rfl, rfl, rfl, rfl, rfl, rfl⟩

theorem SameTerms.trans {a b c : Transfer} (h : SameTerms a b) (h' : SameTerms b c) :
    SameTerms a c where
  id := h'.id.trans h.id
  userId := h'.userId.trans h.userId
  idempotencyKey := h'.idempotencyKey.trans h.idempotencyKey
  sourceProgramId := h'.sourceProgramId.trans h.sourceProgramId
  destinationProgramId := h'.destinationProgramId.trans h.destinationProgramId
  sourceAccountId := h'.sourceAccountId.trans h.sourceAccountId
  destinationAccountId := h'.destinationAccountId.trans h.destinationAccountId
  sourcePoints := h'.sourcePoints.trans h.sourcePoints
  basePoints := h'.basePoints.trans h.basePoints
  bonusPoints := h'.bonusPoints.trans h.bonusPoints
  destinationPoints := h'.destinationPoints.trans h.destinationPoints
  rateId := h'.rateId.trans h.rateId
  rateSnapshot := h'.rateSnapshot.trans h.rateSnapshot
  partnerReference := h'.partnerReference.trans h.partnerReference
  createdAt := h'.createdAt.trans h.createdAt

/-- What the saga and the reconciler write to a row is not among its terms. -/
theorem sameTerms_written (t : Transfer) (status : TransferStatus)
    (failureCode : Option TransferFailureCode)
    (failureMessage partnerConfirmationId : Option String) (verificationAttempts : Int)
    (nextVerificationAt completedAt : Option Time) :
    SameTerms t { t with
      status, failureCode, failureMessage, partnerConfirmationId, verificationAttempts,
      nextVerificationAt, completedAt } :=
  ⟨rfl, rfl, rfl, rfl, rfl, rfl, rfl, rfl, rfl, rfl, rfl, rfl, rfl, rfl, rfl⟩

theorem sameTerms_movedTo (t : Transfer) (toStatus : TransferStatus) (moment : Time) :
    SameTerms t (t.movedTo toStatus moment) :=
  sameTerms_written ..

theorem sameTerms_settledAs (t : Transfer) (confirmationId : String) (wall : Time) :
    SameTerms t (t.settledAs confirmationId wall) :=
  sameTerms_written ..

theorem sameTerms_reversedAs (t : Transfer) (code : TransferFailureCode) (message : String)
    (wall : Time) : SameTerms t (t.reversedAs code message wall) :=
  sameTerms_written ..

/-- The guard of an opening: a new id and key, the user's own two accounts, the
clearing account of the source program, enough points, and the terms the route
gave at that moment. -/
structure Opening (db : Database) (t : Transfer) (source destination clearing : Account) :
    Prop where
  status : t.status = .sourceDebited
  insertable : Insertable db { t with status := .pending }
  reference : t.partnerReference = some t.id
  unresolved : t.failureCode = none ∧ t.partnerConfirmationId = none
  sourceAccount : db.userAccount? t.userId t.sourceProgramId = some source
  sourceId : t.sourceAccountId = source.id
  destinationAccount : db.userAccount? t.userId t.destinationProgramId = some destination
  destinationId : t.destinationAccountId = destination.id
  clearingAccount : db.systemAccount? t.sourceProgramId .transferClearing = some clearing
  balance : t.sourcePoints ≤ source.balance
  priced : ∃ now request terms, Priced db now t.userId request terms ∧
    t = (terms.transfer t.id t.userId t.idempotencyKey t.createdAt).movedTo .sourceDebited now

/-- Why a transfer may be reversed: which failure code goes with which status.
`late` says of a transfer that its not-found grace is over. -/
inductive ReversedBecause (late : Transfer → Prop) (t : Transfer) : TransferFailureCode → Prop
  | rejected : t.status = .partnerSubmitted → ReversedBecause late t .partnerRejected
  | unavailable : t.status = .partnerSubmitted → ReversedBecause late t .partnerUnavailable
  | notReceived : t.status ∈ verifiableStatuses → late t →
      ReversedBecause late t .partnerNotReceived
  | interrupted : t.status = .sourceDebited → ReversedBecause late t .transferInterrupted

/-- What a change rests on outside the database: which transfers may be opened,
recorded as submitted, have an answer recorded, be settled under which
confirmation, or be given up as never received. -/
structure Cause where
  opens : Transfer → Prop
  submits : String → Prop
  records : String → Prop
  settles : String → String → Prop
  late : Transfer → Prop

/-- The changes. -/
inductive Change (c : Cause) (db : Database) : Database → Prop
  | frame {db' : Database} (h : SameLedger db db') (hr : Repriced db db') : Change c db db'
  | opened {t : Transfer} {source destination clearing : Account} {moment : Time}
      (events : List TransferEvent)
      (hopens : c.opens t) (h : Opening db t source destination clearing)
      (hw : Written none t events) : Change c db (opened db t source clearing events moment)
  | submitted {t : Transfer} {now : Time} {event : TransferEvent}
      (ht : db.transfer? t.id = some t) (hsub : c.submits t.id) (hs : t.status = .sourceDebited)
      (he : event.transferId = t.id ∧ event.toStatus = .partnerSubmitted)
      (hw : Written (some t.status) (t.movedTo .partnerSubmitted now) [event]) :
      Change c db (saved db (t.movedTo .partnerSubmitted now) [event] (some now))
  | parked {t t' : Transfer} {moment : Option Time} (events : List TransferEvent)
      (ht : db.transfer? t.id = some t) (hs : t.status ∈ verifiableStatuses)
      (hterms : SameTerms t t')
      (hs' : t'.status = .pendingVerification ∨ t'.status = .manualReview)
      (hrec : c.records t.id) (hw : Written (some t.status) t' events) :
      Change c db (saved db t' events moment)
  | settled {t : Transfer} {accts : SettleAccounts} {confirmationId : String} {wall : Time}
      (events : List TransferEvent)
      (ht : db.transfer? t.id = some t) (hs : t.status ∈ verifiableStatuses)
      (hset : c.settles t.id confirmationId) (ha : accts.Of db t) (hrec : c.records t.id)
      (hw : Written (some t.status) (t.settledAs confirmationId wall) events) :
      Change c db (saved (posted db .transferSettle (settlePostings accts t) (some t.id))
        (t.settledAs confirmationId wall) events (some wall))
  | reversed {t : Transfer} {clearing source : Account} {code : TransferFailureCode}
      {message : String} {wall : Time} (events : List TransferEvent)
      (ht : db.transfer? t.id = some t) (hs : ReversedBecause c.late t code)
      (hc : db.systemAccount? t.sourceProgramId .transferClearing = some clearing)
      (ha : db.account? t.sourceAccountId = some source)
      (hrec : t.status ≠ .sourceDebited → c.records t.id)
      (hw : Written (some t.status) (t.reversedAs code message wall) events) :
      Change c db (saved (posted db .transferReversal
        (reversePostings clearing source t.sourcePoints) (some t.id))
        (t.reversedAs code message wall) events (some wall))
  | leased (claimed : List String) (expiry : Time)
      (hdue : ∀ id ∈ claimed, ∃ t ∈ db.transfers, t.id = id ∧
        (t.status ∈ stuckStatuses ∨ t.status = .pendingVerification)) :
      Change c db (leased claimed expiry db)

variable {c : Cause} {db db' : Database}

theorem Change.none : Change c db db := .frame (SameLedger.refl db) (.same rfl)

/-! ## The saga -/

theorem openTransfer_ok {maxPoints : Option Int}
    {now createdAt : Time} {transferId userId key : String} {request : TransferRequest}
    {d : DebitedTransfer}
    (h : (openTransfer maxPoints now createdAt transferId userId request key).run db =
      .ok (d, db')) :
    ensureDifferentPrograms request.sourceProgram request.destinationProgram = .ok () ∧
      ensureWithinPlatformLimit request.sourcePoints maxPoints = .ok () ∧
      (debitSource now createdAt transferId userId request key).run db = .ok (d, db') := by
  simp only [openTransfer, Tx.bind_ok, Tx.ofExcept_ok, mapError_ok] at h
  obtain ⟨_, _, ⟨_, h₁, e₁⟩, _, _, ⟨_, h₂, e₂⟩, h₃⟩ := h
  cases e₁; cases e₂
  exact ⟨h₁, h₂, h₃⟩

/-- The request passes every check a debit makes before its INSERT. -/
structure Passes (maxPoints : Option Int) (db : Database) (now : Time) (userId : String)
    (request : TransferRequest) : Prop where
  differentPrograms :
    ensureDifferentPrograms request.sourceProgram request.destinationProgram = .ok ()
  platformLimit : ensureWithinPlatformLimit request.sourcePoints maxPoints = .ok ()
  priced : ∃ terms, Priced db now userId request terms

/-- A debit that commits opens one transfer, under the id and key it was given. -/
theorem openTransfer_change (hn : (db.accounts.map Account.id).Nodup) {maxPoints : Option Int}
    {now createdAt : Time} {transferId userId key : String} {request : TransferRequest}
    {d : DebitedTransfer}
    (h : (openTransfer maxPoints now createdAt transferId userId request key).run db =
      .ok (d, db')) :
    ∃ terms t events, Priced db now userId request terms ∧
      t = (terms.transfer transferId userId key createdAt).movedTo .sourceDebited now ∧
      d = ⟨transferId, terms.partnerCode, terms.memberId, t.destinationPoints⟩ ∧
      Opening db t terms.source terms.destination terms.clearing ∧ Written none t events ∧
      db' = opened db t terms.source terms.clearing events now := by
  obtain ⟨terms, hp, rfl, hins, -, rfl⟩ := debitSource_ok hn (openTransfer_ok h).2.2
  refine ⟨terms, _, _, hp, rfl, rfl, ⟨rfl, hins, rfl, ⟨rfl, rfl⟩, hp.source, rfl, hp.destination,
    rfl, hp.clearing, ?_, ⟨now, request, terms, hp, rfl⟩⟩, ?_, rfl⟩
  · exact (calculateConversion_ok hp.conversion).trans_le hp.balance
  · refine ⟨(checked_iff.mp hins.checked).movedTo ?_ (by decide) now, ?_, ?_, ?_⟩
    · simp [DebitTerms.transfer, finalStatuses]
    · simp [debitEvents, recordCreation, Transfer.movedTo]
    · exact ⟨rfl, rfl, rfl, List.mem_cons_self .., rfl⟩
    · exact scheduled_open (by simp [Transfer.movedTo]) (by simp [Transfer.movedTo, closedStatuses])

theorem sourceDebited_of_submit {s : TransferStatus}
    (h : .partnerSubmitted ∈ allowedTransitions s) :
    s = .sourceDebited := by
  cases s <;> simp [allowedTransitions] at h ⊢

theorem markSubmitted_change {now : Time} {transferId partnerCode : String} {u : Unit}
    (h : (markSubmitted now transferId partnerCode).run db = .ok (u, db')) :
    ∃ t event, db.transfer? transferId = some t ∧ t.status = .sourceDebited ∧
      (event.transferId = t.id ∧ event.toStatus = .partnerSubmitted) ∧
      Written (some t.status) (t.movedTo .partnerSubmitted now) [event] ∧
      db' = saved db (t.movedTo .partnerSubmitted now) [event] (some now) := by
  obtain ⟨t, ht, hall, hck, -, rfl⟩ := markSubmitted_ok.mp h
  refine ⟨t, _, ht, sourceDebited_of_submit hall, ⟨rfl, rfl⟩, ?_, rfl⟩
  refine ⟨checked_iff.mp hck, ?_, leads_single rfl hall, ?_⟩
  · simp [Transfer.movedTo]
  · exact scheduled_open (by simp [Transfer.movedTo]) (by simp [Transfer.movedTo, closedStatuses])

theorem settleTransfer_change (hn : (db.accounts.map Account.id).Nodup) {wall : Time}
    {t : Transfer} {confirmationId reason : String} {metadata : List (String × Json.Value)}
    {u : Unit} (ht : db.transfer? t.id = some t) (hs : t.status ∈ verifiableStatuses)
    (hset : c.settles t.id confirmationId) (hrec : c.records t.id)
    (h : (settleTransfer wall t confirmationId reason metadata).run db = .ok (u, db')) :
    Change c db db' := by
  obtain ⟨accts, hof, -, hall, hck, -, rfl⟩ := (settleTransfer_ok hn).mp h
  refine .settled _ ht hs hset hof hrec ⟨checked_iff.mp hck, ?_, leads_single rfl hall, ?_⟩
  · simp [Transfer.settledAs]
  · exact scheduled_closed (List.mem_cons_self ..) rfl

theorem reverseTransfer_change (hn : (db.accounts.map Account.id).Nodup) {wall : Time}
    {t : Transfer} {code : TransferFailureCode} {message reason : String}
    {metadata : List (String × Json.Value)} {u : Unit} (ht : db.transfer? t.id = some t)
    (hs : ReversedBecause c.late t code) (hrec : t.status ≠ .sourceDebited → c.records t.id)
    (h : (reverseTransfer wall t code message reason metadata).run db = .ok (u, db')) :
    Change c db db' := by
  obtain ⟨clearing, source, hc, ha, -, hall, hck, -, rfl⟩ := (reverseTransfer_ok hn).mp h
  refine .reversed _ ht hs hc ha hrec ⟨checked_iff.mp hck, ?_, leads_single rfl hall, ?_⟩
  · simp [Transfer.reversedAs]
  · exact scheduled_closed (List.mem_cons_of_mem _ (List.mem_cons_self ..)) rfl

theorem applyPartnerOutcome_change (hn : (db.accounts.map Account.id).Nodup)
    {verificationDelay now wall : Time} {transferId : String} {result : PartnerCreditResult}
    {r : TransferStatus} (hrec : c.records transferId)
    (hset : ∀ confirmationId, result.outcome = .success →
      nonempty result.confirmationId = some confirmationId → c.settles transferId confirmationId)
    (h : (applyPartnerOutcome verificationDelay now wall transferId result).run db =
      .ok (r, db')) : Change c db db' := by
  obtain ⟨t, rfl, ht, ⟨-, -, rfl⟩ | ⟨hs, hrun⟩⟩ := applyPartnerOutcome_inv h
  · exact .none
  · have hv : t.status ∈ verifiableStatuses := by simp [hs, verifiableStatuses]
    cases hrun with
    | settled hout hconf hrun => exact settleTransfer_change hn ht hv (hset _ hout hconf) hrec hrun
    | rejected _ hrun => exact reverseTransfer_change hn ht (.rejected hs) (fun _ => hrec) hrun
    | unavailable _ hrun =>
        exact reverseTransfer_change hn ht (.unavailable hs) (fun _ => hrec) hrun
    | parked _ _ _ hw => exact .parked _ ht hv (sameTerms_written ..) (.inl rfl) hrec hw

theorem findByIdempotencyKey_ok {userId key : String} {id : String} :
    (findByIdempotencyKey userId key).run db = .ok (id, db') ↔
      ∃ t, db.transferByKey? userId key = some t ∧ t.id = id ∧ db' = db := by
  simp only [findByIdempotencyKey, Tx.bind_ok, Tx.get_ok, Tx.ofOption_ok, Tx.pure_ok]
  constructor
  · rintro ⟨_, _, e₁, _, _, ⟨t, ht, e₂⟩, e₃⟩
    cases e₁; cases e₂; cases e₃
    exact ⟨_, ht, rfl, rfl⟩
  · rintro ⟨t, ht, rfl, rfl⟩
    exact ⟨_, _, rfl, _, _, ⟨t, ht, rfl⟩, rfl⟩

/-! ## The reconciler -/

theorem snapshot_ok {transferId : String} {snap : Snapshot}
    (h : (snapshot transferId).run db = .ok (snap, db')) :
    db' = db ∧ ∃ t p, db.transfer? transferId = some t ∧
      db.program? t.destinationProgramId = some p ∧
      snap = ⟨t.status, t.createdAt, p.partnerCode,
        (nonempty t.partnerReference).getD transferId⟩ := by
  simp only [snapshot, Tx.bind_ok, Tx.get_ok, Tx.ofOption_ok, Tx.pure_ok] at h
  obtain ⟨_, _, e₁, _, _, ⟨t, ht, e₂⟩, _, _, ⟨_, -, e₃⟩, _, _, ⟨p, hp, e₄⟩, e₅⟩ := h
  cases e₁; cases e₂; cases e₃; cases e₄; cases e₅
  exact ⟨rfl, _, _, ht, hp, rfl⟩

theorem reverseInterrupted_change (hn : (db.accounts.map Account.id).Nodup) {wall : Time}
    {transferId : String} {r : ReconcileResult}
    (h : (reverseInterrupted wall transferId).run db = .ok (r, db')) : Change c db db' := by
  obtain ⟨t, rfl, ht, ⟨-, -, rfl⟩ | ⟨hs, -, _, _, _, hrun⟩⟩ := reverseInterrupted_inv h
  · exact .none
  · exact reverseTransfer_change hn ht (.interrupted hs) (fun hne => absurd hs hne) hrun

theorem applyStatus_change (hn : (db.accounts.map Account.id).Nodup)
    {policy : ReconciliationPolicy} {now wall : Time} {transferId : String}
    {answer : PartnerStatusResult} {r : ReconcileResult} (hrec : c.records transferId)
    (hset : ∀ confirmationId, answer.status = .completed →
      nonempty answer.confirmationId = some confirmationId → c.settles transferId confirmationId)
    (hlate : ∀ t, t.createdAt + policy.notFoundGrace ≤ now → c.late t)
    (h : (applyStatus policy now wall transferId answer).run db = .ok (r, db')) :
    Change c db db' := by
  obtain ⟨t, rfl, ht, ⟨-, -, rfl⟩ | ⟨hv, hrun⟩⟩ := applyStatus_inv h
  · exact .none
  · cases hrun with
    | settled hst hconf hrun => exact settleTransfer_change hn ht hv (hset _ hst hconf) hrec hrun
    | reversed _ hgrace hrun =>
        exact reverseTransfer_change hn ht (.notReceived hv (hlate t hgrace)) (fun _ => hrec) hrun
    | early _ _ hrow hw =>
        cases hrow
        exact .parked _ ht hv (sameTerms_written ..) (.inl rfl) hrec hw
    | counted _ _ _ hw => exact .parked _ ht hv (sameTerms_written ..) (.inl rfl) hrec hw
    | exhausted _ _ hw => exact .parked _ ht hv (sameTerms_written ..) (.inr rfl) hrec hw

theorem due_status {policy : ReconciliationPolicy} {now : Time} {t : Transfer}
    (h : policy.due now t = true) :
    t.status ∈ stuckStatuses ∨ t.status = .pendingVerification := by
  simp only [ReconciliationPolicy.due, Bool.or_eq_true, Bool.and_eq_true,
    decide_eq_true_eq] at h
  rcases h with ⟨hs, -⟩ | ⟨⟨hs, -⟩, -⟩
  · exact .inr hs
  · exact .inl hs

theorem claimable_due {policy : ReconciliationPolicy} {now : Time} {batchSize : Nat}
    {locked : List String} {transfers : List Transfer} {t : Transfer}
    (h : t ∈ claimable policy now batchSize locked transfers) :
    t ∈ transfers ∧ policy.due now t = true ∧ t.id ∉ locked := by
  have hsorted := List.mem_of_mem_take h
  rw [List.mem_insertionSort, List.mem_filter, Bool.and_eq_true] at hsorted
  obtain ⟨ht, hdue, hfree⟩ := hsorted
  exact ⟨ht, hdue, by simpa using hfree⟩

theorem leased_nil (expiry : Time) : leased [] expiry db = db := by
  simp [leased]

/-- The instants of a claim are `datetime`s. -/
def ReconciliationPolicy.claimsAt (policy : ReconciliationPolicy) (now : Time)
    (claimed : List String) : Prop :=
  fitsDatetime (now + -policy.stuckAfter) = true ∧
    (claimed ≠ [] → fitsDatetime (now + policy.lease) = true)

theorem claimDue_ok {policy : ReconciliationPolicy} {now : Time} {batchSize : Nat}
    {locked claimed : List String} :
    (claimDue policy now batchSize locked).run db = .ok (claimed, db') ↔
      claimed = (claimable policy now batchSize locked db.transfers).map Transfer.id ∧
        policy.claimsAt now claimed ∧ db' = leased claimed (now + policy.lease) db := by
  simp only [claimDue, Tx.bind_ok, Tx.ofExcept_ok, dateAdd_ok, Tx.get_ok]
  constructor
  · rintro ⟨_, _, ⟨_, ⟨hstuck, rfl⟩, e₁⟩, _, _, e₂, h⟩
    cases e₁; cases e₂
    split at h
    · rename_i hnone
      cases Tx.pure_ok.mp h
      refine ⟨rfl, ⟨hstuck, fun hne => absurd hnone hne⟩, ?_⟩
      rw [hnone, leased_nil]
    · simp only [Tx.bind_ok, Tx.ofExcept_ok, dateAdd_ok, Tx.set_ok, Tx.pure_ok] at h
      obtain ⟨_, _, ⟨_, ⟨hlease, rfl⟩, e₁⟩, _, _, e₂, e₃⟩ := h
      cases e₁; cases e₂; cases e₃
      exact ⟨rfl, ⟨hstuck, fun _ => hlease⟩, rfl⟩
  · rintro ⟨rfl, ⟨hstuck, hlease⟩, rfl⟩
    refine ⟨_, _, ⟨_, ⟨hstuck, rfl⟩, rfl⟩, _, _, rfl, ?_⟩
    split
    · rename_i hnone
      rw [hnone, leased_nil]
      exact Tx.pure_ok.mpr rfl
    · rename_i hsome
      simp only [Tx.bind_ok, Tx.ofExcept_ok, dateAdd_ok, Tx.set_ok, Tx.pure_ok]
      exact ⟨_, _, ⟨_, ⟨hlease hsome, rfl⟩, rfl⟩, _, _, rfl, rfl⟩

theorem claimDue_change {policy : ReconciliationPolicy} {now : Time} {batchSize : Nat}
    {locked claimed : List String}
    (h : (claimDue policy now batchSize locked).run db = .ok (claimed, db')) :
    Change c db db' := by
  obtain ⟨rfl, -, rfl⟩ := claimDue_ok.mp h
  refine .leased _ _ ?_
  intro id hid
  obtain ⟨t, ht, hid⟩ := List.mem_map.mp hid
  obtain ⟨hmem, hdue, -⟩ := claimable_due ht
  exact ⟨t, hmem, hid, due_status hdue⟩

/-! ## What a change does to one transfer -/

/-- How a stored transfer can go on. -/
inductive Advance (c : Cause) (t : Transfer) : Transfer → Prop
  | stay {t' : Transfer} (hs : t'.status = t.status) (hf : t'.failureCode = t.failureCode)
      (hc : t'.partnerConfirmationId = t.partnerConfirmationId) : Advance c t t'
  | submitted {now : Time} (hsub : c.submits t.id) (hs : t.status = .sourceDebited) :
      Advance c t (t.movedTo .partnerSubmitted now)
  | parked {t' : Transfer} (hs : t.status ∈ verifiableStatuses)
      (hs' : t'.status = .pendingVerification ∨ t'.status = .manualReview)
      (hrec : c.records t.id) : Advance c t t'
  | settled {confirmationId : String} {wall : Time} (hs : t.status ∈ verifiableStatuses)
      (hset : c.settles t.id confirmationId) (hrec : c.records t.id) :
      Advance c t (t.settledAs confirmationId wall)
  | reversed {code : TransferFailureCode} {message : String} {wall : Time}
      (hs : ReversedBecause c.late t code) (hrec : t.status ≠ .sourceDebited → c.records t.id) :
      Advance c t (t.reversedAs code message wall)

theorem Advance.refl (t : Transfer) : Advance c t t := .stay rfl rfl rfl

/-- A saved row is there, and every other row is as it was. -/
theorem transfer?_saved {db₁ : Database} (hdb : db₁.transfers = db.transfers) {t t' x : Transfer}
    (events : List TransferEvent) (moment : Option Time) {id : String}
    (ht : db.transfer? t.id = some t) (hid : t'.id = t.id) (hx : db.transfer? id = some x) :
    (id = t.id ∧ x = t ∧ (saved db₁ t' events moment).transfer? id = some t') ∨
      (id ≠ t.id ∧ (saved db₁ t' events moment).transfer? id = some x) := by
  simp only [Database.transfer?, saved, hdb] at *
  by_cases h : id = t.id
  · subst h
    rw [ht] at hx
    cases hx
    refine .inl ⟨rfl, rfl, ?_⟩
    rw [← hid] at ht ⊢
    exact Table.lookup_replace_self ht
  · exact .inr ⟨h, by rw [Table.lookup_replace_other (by rw [hid]; exact h)]; exact hx⟩

theorem transfer?_saved_self {db₁ : Database} (hdb : db₁.transfers = db.transfers)
    {t t' : Transfer} {events : List TransferEvent} {moment : Option Time}
    (ht : db.transfer? t.id = some t) (hid : t'.id = t.id) :
    (saved db₁ t' events moment).transfer? t.id = some t' := by
  rcases transfer?_saved hdb events moment ht hid ht with ⟨-, -, h⟩ | ⟨hne, -⟩
  · exact h
  · exact absurd rfl hne

theorem lookup_map_id {g : Transfer → Transfer} (hg : ∀ t, (g t).id = t.id) {id : String}
    {transfers : List Transfer} {x : Transfer}
    (hx : Table.lookup Transfer.id id transfers = some x) :
    Table.lookup Transfer.id id (transfers.map g) = some (g x) := by
  simp only [Table.lookup, List.find?_map, Option.map_eq_some_iff] at hx ⊢
  refine ⟨x, ?_, rfl⟩
  rw [← hx]
  congr 1
  funext t
  simp [hg t]

/-- A change keeps every transfer, with its terms, and moves it at most one
step on. -/
theorem Change.advance (h : Change c db db') {id : String} {x : Transfer}
    (hx : db.transfer? id = some x) :
    ∃ x', db'.transfer? id = some x' ∧ SameTerms x x' ∧ Advance c x x' := by
  have hsaved : ∀ {db₁ : Database} {t t' : Transfer} {events : List TransferEvent}
      {moment : Option Time},
      db₁.transfers = db.transfers → db.transfer? t.id = some t → SameTerms t t' →
      Advance c t t' →
      ∃ x', (saved db₁ t' events moment).transfer? id = some x' ∧ SameTerms x x' ∧
        Advance c x x' := by
    intro db₁ t t' events moment hdb ht hterms hadv
    rcases transfer?_saved hdb events moment ht hterms.id hx with ⟨-, rfl, h⟩ | ⟨-, h⟩
    · exact ⟨t', h, hterms, hadv⟩
    · exact ⟨x, h, SameTerms.refl x, Advance.refl x⟩
  cases h with
  | frame hf =>
      refine ⟨x, ?_, SameTerms.refl x, Advance.refl x⟩
      rw [Database.transfer?, hf.transfers]
      exact hx
  | opened events _ ho =>
      exact ⟨x, Table.lookup_append_of_some _ hx, SameTerms.refl x, Advance.refl x⟩
  | submitted ht hsub hs _ => exact hsaved rfl ht (sameTerms_movedTo _ _ _) (.submitted hsub hs)
  | parked events ht hs hterms hs' hrec => exact hsaved rfl ht hterms (.parked hs hs' hrec)
  | settled events ht hs hset _ hrec =>
      exact hsaved rfl ht (sameTerms_settledAs _ _ _) (.settled hs hset hrec)
  | reversed events ht hs _ _ hrec =>
      exact hsaved rfl ht (sameTerms_reversedAs _ _ _ _) (.reversed hs hrec)
  | leased claimed expiry =>
      refine ⟨_, lookup_map_id (fun t => ?_) hx, ?_, ?_⟩
      · by_cases hc : t.id ∈ claimed <;> simp [hc]
      · by_cases hc : x.id ∈ claimed
        · rw [if_pos hc]
          exact sameTerms_written ..
        · rw [if_neg hc]
          exact SameTerms.refl x
      · by_cases hc : x.id ∈ claimed
        · rw [if_pos hc]
          exact .stay rfl rfl rfl
        · rw [if_neg hc]
          exact Advance.refl x

/-- A transfer that was not there before was opened. -/
theorem Change.opened_of_new (h : Change c db db') {x : Transfer}
    (hx : x ∈ db'.transfers) (hnew : ∀ y ∈ db.transfers, y.id ≠ x.id) :
    c.opens x ∧ ∃ source destination clearing, Opening db x source destination clearing := by
  have hsaved : ∀ {db₁ : Database} {t t' : Transfer} {events : List TransferEvent}
      {moment : Option Time}, x ∈ (saved db₁ t' events moment).transfers →
      db₁.transfers = db.transfers → db.transfer? t.id = some t → t'.id = t.id → False := by
    intro db₁ t t' events moment hx hdb ht hid
    simp only [saved, hdb] at hx
    rcases Table.mem_replace.mp hx with ⟨rfl, -⟩ | ⟨hx, -⟩
    · exact hnew t (Table.lookup_mem ht) hid.symm
    · exact hnew x hx rfl
  cases h with
  | frame hf =>
      rw [hf.transfers] at hx
      exact absurd rfl (hnew x hx)
  | opened events hopens ho =>
      rcases List.mem_append.mp hx with hx | hx
      · exact absurd rfl (hnew x hx)
      · rw [List.mem_singleton.mp hx]
        exact ⟨hopens, _, _, _, ho⟩
  | submitted ht _ _ _ => exact (hsaved hx rfl ht rfl).elim
  | parked events ht _ hterms _ => exact (hsaved hx rfl ht hterms.id).elim
  | settled events ht _ _ _ => exact (hsaved hx rfl ht rfl).elim
  | reversed events ht _ _ _ => exact (hsaved hx rfl ht rfl).elim
  | leased claimed expiry =>
      obtain ⟨t, ht, rfl⟩ := List.mem_map.mp hx
      refine absurd ?_ (hnew t ht)
      by_cases hc : t.id ∈ claimed <;> simp [hc]

/-- The audit trail only grows. -/
theorem Change.events_subset (h : Change c db db') {e : TransferEvent}
    (he : e ∈ db.transferEvents) : e ∈ db'.transferEvents := by
  cases h with
  | frame hf => rw [hf.transferEvents]; exact he
  | leased => exact he
  | _ => exact List.mem_append_left _ he

/-- Rates change by replacement only. -/
theorem Change.repriced (h : Change c db db') : Repriced db db' := by
  cases h with
  | frame _ hr => exact hr
  | _ => exact .same rfl

end LoyaltyTransfer
