/-
# `LoyaltyTransfer.Trail` — what a write of a transfer leaves behind

Every transaction that changes the status of a transfer writes the row back,
appends audit events and sets the time of the next check.  `Written` says of one
such write that the three agree:

    the row       passes the columns and CHECKs of `transfers`
    the events    lead from the status it had to the status it has
    the schedule  a check is due in PENDING_VERIFICATION and none once it is closed

Each transaction of the saga and the reconciler is shown to write this way in
`Records` and `Changes`; what follows for whole runs is in `Audit` and `Reach`.
-/
import LoyaltyTransfer.Reconciler

namespace LoyaltyTransfer

/-! ## Events -/

/-- The events of a transfer, in the order of their ids. -/
def Database.eventsOf (db : Database) (id : String) : List TransferEvent :=
  db.transferEvents.filter fun e => decide (e.transferId = id)

/-- A move the audit trail may show; `none` is before the creation. -/
def Moves : Option TransferStatus → TransferStatus → Prop
  | none, toStatus => toStatus = .pending
  | some fromStatus, toStatus => toStatus ∈ allowedTransitions fromStatus

/-- The events lead from `s` to `s'`, each starting where the one before it
stopped. -/
def Leads : Option TransferStatus → List TransferEvent → Option TransferStatus → Prop
  | s, [], s' => s = s'
  | s, e :: es, s' => e.fromStatus = s ∧ Moves s e.toStatus ∧ Leads (some e.toStatus) es s'

theorem leads_nil (s : Option TransferStatus) : Leads s [] s := rfl

theorem Leads.append {s s' s'' : Option TransferStatus} {es es' : List TransferEvent}
    (h : Leads s es s') (h' : Leads s' es' s'') : Leads s (es ++ es') s'' := by
  induction es generalizing s with
  | nil =>
      cases h
      exact h'
  | cons e es ih =>
      obtain ⟨hfrom, hmoves, hrest⟩ := h
      exact ⟨hfrom, hmoves, ih hrest⟩

/-- One event. -/
theorem leads_single {e : TransferEvent} {s : Option TransferStatus} (hfrom : e.fromStatus = s)
    (hmoves : Moves s e.toStatus) : Leads s [e] (some e.toStatus) :=
  ⟨hfrom, hmoves, rfl⟩

/-! ## The schedule -/

/-- The statuses nothing moves a transfer out of. -/
def closedStatuses : List TransferStatus := [.completed, .reversed, .manualReview]

structure Transfer.Scheduled (t : Transfer) : Prop where
  waiting : t.status = .pendingVerification → t.nextVerificationAt.isSome = true
  closed : t.status ∈ closedStatuses → t.nextVerificationAt = none

theorem scheduled_open {t : Transfer} (hw : t.status ≠ .pendingVerification)
    (hc : t.status ∉ closedStatuses) : t.Scheduled :=
  ⟨fun h => absurd h hw, fun h => absurd h hc⟩

theorem scheduled_waiting {t : Transfer} {next : Time} (hs : t.status = .pendingVerification)
    (hnext : t.nextVerificationAt = some next) : t.Scheduled where
  waiting := fun _ => by rw [hnext]; rfl
  closed := fun h => by rw [hs] at h; simp [closedStatuses] at h

theorem scheduled_closed {t : Transfer} (hs : t.status ∈ closedStatuses)
    (hnext : t.nextVerificationAt = none) : t.Scheduled where
  waiting := fun h => by rw [h] at hs; simp [closedStatuses] at hs
  closed := fun _ => hnext

/-! ## One write -/

/-- The row `t` was written with these events, from the status `s`. -/
structure Written (s : Option TransferStatus) (t : Transfer) (events : List TransferEvent) :
    Prop where
  valid : t.Valid
  ids : ∀ e ∈ events, e.transferId = t.id
  trail : Leads s events (some t.status)
  scheduled : t.Scheduled

/-- A valid row stays valid on its way between two statuses that are not final. -/
theorem Transfer.Valid.movedTo {t : Transfer} (h : t.Valid) (hs : t.status ∉ finalStatuses)
    {toStatus : TransferStatus} (hto : toStatus ∉ finalStatuses) (moment : Time) :
    (t.movedTo toStatus moment).Valid := by
  have hdone := h.completedAt
  have hcompleted : toStatus ≠ .completed := by
    rintro rfl
    simp [finalStatuses] at hto
  have hreversed : toStatus ≠ .reversed := by
    rintro rfl
    simp [finalStatuses] at hto
  rw [decide_eq_false hs] at hdone
  refine { h with confirmed := ?_, completedAt := ?_, failed := ?_ }
  · rintro ⟨hst, -⟩
    exact hcompleted hst
  · show decide (toStatus ∈ finalStatuses) =
      (if toStatus ∈ finalStatuses then some moment else t.completedAt).isSome
    rw [if_neg hto, decide_eq_false hto]
    exact hdone
  · rintro ⟨hst, -⟩
    exact hreversed hst

end LoyaltyTransfer
