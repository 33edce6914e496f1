/-
# `LoyaltyTransfer.Reach` — no transfer falls out of the reconciler's reach

`next_verification_at` is written by six operations, and `claim_due` and
`reconcile` decide with separately written conditions whether a transfer is due.

**Proved here.**  In every reachable state an unresolved transfer is due for
`claim_due` as soon as its stuck window and its own schedule have passed, and a
reconcile that decides about it from then on does not answer NOT_DUE, whatever
happens in between (`no_transfer_out_of_reach`).
-/
import LoyaltyTransfer.Audit
import LoyaltyTransfer.Ownership

namespace LoyaltyTransfer

open Transaction

/-! ## The two conditions -/

section

variable {policy : ReconciliationPolicy} {now : Time} {t : Transfer}

/-- The WHERE clause holds once both times have passed; NULL counts as passed
only outside PENDING_VERIFICATION, where it does not occur. -/
theorem due_of_passed (hscheduled : t.Scheduled)
    (hs : t.status ∈ stuckStatuses ++ [.pendingVerification])
    (hstuck : t.createdAt + policy.stuckAfter ≤ now)
    (hnext : ∀ next, t.nextVerificationAt = some next → next ≤ now) :
    policy.due now t = true := by
  simp only [ReconciliationPolicy.due, Bool.or_eq_true, Bool.and_eq_true, decide_eq_true_eq]
  rcases List.mem_append.mp hs with hs | hs
  · refine .inr ⟨⟨hs, le_sub_iff_add_le.mpr hstuck⟩, ?_⟩
    cases h : t.nextVerificationAt with
    | none => rfl
    | some next => simpa using hnext next h
  · have hs := List.mem_singleton.mp hs
    obtain ⟨next, h⟩ := Option.isSome_iff_exists.mp (hscheduled.waiting hs)
    refine .inl ⟨hs, ?_⟩
    simpa [h] using hnext next h

/-- `_reconcile` answers NOT_DUE only inside the stuck window. -/
theorem notDue_early {snap : Snapshot}
    (h : reconcileDecision policy now snap = .ok (.answer .notDue)) :
    now < snap.createdAt + policy.stuckAfter := by
  cases reconcileDecision_ok.mp h with
  | young _ _ hearly => exact hearly

end

/-! ## What a reconcile finishes with -/

section

variable {db db' : Database}

theorem reverseInterrupted_result {wall : Time} {transferId : String} {r : ReconcileResult}
    (h : (reverseInterrupted wall transferId).run db = .ok (r, db')) : r ≠ .notDue := by
  obtain ⟨t, -, -, ⟨-, rfl, -⟩ | ⟨-, rfl, -⟩⟩ := reverseInterrupted_inv h
  · simp
  · simp

theorem applyStatus_result {policy : ReconciliationPolicy} {now wall : Time}
    {transferId : String} {answer : PartnerStatusResult} {r : ReconcileResult}
    (h : (applyStatus policy now wall transferId answer).run db = .ok (r, db')) :
    r ≠ .notDue := by
  obtain ⟨t, -, -, ⟨-, rfl, -⟩ | ⟨-, hrun⟩⟩ := applyStatus_inv h
  · simp
  · cases hrun <;> simp

/-- The one move that finishes with NOT_DUE is a decision inside the stuck
window of the snapshot. -/
theorem ReconcileMove.notDue {cfg : Config} {p : Reconcile} {st st' : Store}
    {act : ReconcileAction} {pc : ReconcilePc} (h : ReconcileMove cfg p st act st' pc)
    (hpc' : pc = .finished .notDue) :
    ∃ now snap, act = .decide now ∧ p.pc = .snapshotted snap ∧
      now < snap.createdAt + cfg.policy.stuckAfter := by
  cases h with
  | @decided now snap hpc =>
      refine ⟨now, snap, rfl, hpc, notDue_early ?_⟩
      simp only [decidePc] at hpc'
      split at hpc'
      · rename_i hdec
        cases hpc'
        exact hdec
      · cases hpc'
      · cases hpc'
      · cases hpc'
  | reversed _ hrun =>
      cases hpc'
      exact absurd rfl (reverseInterrupted_result hrun)
  | applied _ hrun =>
      cases hpc'
      exact absurd rfl (applyStatus_result hrun)
  | _ => cases hpc'

end

/-! ## Along a run -/

section

variable {cfg : Config} {s₀ s s' : State} {as : List Action} {a : Action}

/-- A snapshot is taken with the creation time of its transfer. -/
theorem ReconcileMove.dated {p : Reconcile} {st st' : Store} {act : ReconcileAction}
    {pc : ReconcilePc} (h : ReconcileMove cfg p st act st' pc) {snap : Snapshot}
    (hpc : pc = .snapshotted snap) :
    ∃ t, st.db.transfer? p.transferId = some t ∧ t.createdAt = snap.createdAt := by
  cases h with
  | snapshotted _ hrun =>
      obtain ⟨-, t, _, ht, -, rfl⟩ := snapshot_ok hrun
      cases hpc
      exact ⟨t, ht, rfl⟩
  | decided =>
      simp only [decidePc] at hpc
      split at hpc <;> cases hpc
  | _ => cases hpc

/-- Every snapshot in use has the creation time of its transfer. -/
def State.SnapshotsDated (s : State) : Prop :=
  ∀ (k : Nat) (p : Reconcile) (snap : Snapshot), s.reconciles[k]? = some p →
    p.pc = .snapshotted snap →
      ∃ t, s.store.db.transfer? p.transferId = some t ∧ t.createdAt = snap.createdAt

theorem State.SnapshotsDated.step (hn : (s.store.db.accounts.map Account.id).Nodup)
    (h : s.SnapshotsDated) (hstep : Step cfg s a s') : s'.SnapshotsDated := by
  have hchange := hstep.change hn
  have hkeep : ∀ {id : String} {t : Transfer}, s.store.db.transfer? id = some t →
      ∃ t', s'.store.db.transfer? id = some t' ∧ t'.createdAt = t.createdAt := by
    intro id t ht
    obtain ⟨t', ht', hterms, -⟩ := hchange.advance ht
    exact ⟨t', ht', hterms.createdAt⟩
  intro k p' snap hp' hpc'
  rcases hstep.reconcileStory hp' with hp | hpc | ⟨-, hp, hm, rfl⟩
  · obtain ⟨t, ht, hdate⟩ := h k p' snap hp hpc'
    obtain ⟨t', ht', hkept⟩ := hkeep ht
    exact ⟨t', ht', hkept.trans hdate⟩
  · rw [hpc'] at hpc
    cases hpc
  · obtain ⟨t, ht, hdate⟩ := hm.dated hpc'
    obtain ⟨t', ht', hkept⟩ := hkeep ht
    exact ⟨t', ht', hkept.trans hdate⟩

theorem run_snapshotsDated (h₀ : Initial s₀) (h : Runs.run (step cfg) s₀ as = some s) :
    s.SnapshotsDated := by
  have hI := Runs.run_invariant
    (I := fun s => Sound s₀.store.db s.store.db ∧ s.SnapshotsDated)
    (fun s a s' hI hstep => ?_) ⟨h₀.seeded.sound, ?_⟩ h
  · exact hI.2
  · obtain ⟨hsound, hdated⟩ := hI
    exact ⟨hsound.step h₀.seeded hstep,
      hdated.step (hsound.accountIds h₀.seeded) (step_inv hstep)⟩
  · intro k p snap hp
    rw [h₀.reconciles] at hp
    cases hp

/-- In every reachable state no transfer is PENDING, a check is scheduled in
PENDING_VERIFICATION and none once the transfer is closed; and a transfer that
is not closed is due from `created_at + stuck_after` and its own
`next_verification_at` on, and from then on no step of a reconcile of it
answers NOT_DUE, whatever runs before that reconcile. -/
theorem no_transfer_out_of_reach (h₀ : Initial s₀) (h : Runs.run (step cfg) s₀ as = some s)
    {t : Transfer} (ht : t ∈ s.store.db.transfers) :
    t.status ≠ .pending ∧
    (t.status = .pendingVerification → t.nextVerificationAt.isSome = true) ∧
    (t.status = .completed ∨ t.status = .reversed ∨ t.status = .manualReview →
      t.nextVerificationAt = none) ∧
    (t.status = .sourceDebited ∨ t.status = .partnerSubmitted ∨
        t.status = .pendingVerification →
      ∀ now, t.createdAt + cfg.policy.stuckAfter ≤ now →
        (∀ next, t.nextVerificationAt = some next → next ≤ now) →
        cfg.policy.due now t = true ∧
        ∀ bs s', Runs.run (step cfg) s bs = some s' →
          ∀ (k : Nat) (p p'' : Reconcile) (act : ReconcileAction) (s'' : State),
            s'.reconciles[k]? = some p → p.transferId = t.id →
            (∀ now', act = .decide now' → now ≤ now') →
            step cfg s' (.reconcile k act) = some s'' → s''.reconciles[k]? = some p'' →
            p''.pc ≠ .finished .notDue) := by
  obtain ⟨hsound, haudited⟩ := run_audited h₀ h
  have hscheduled := haudited.scheduled t ht
  refine ⟨(hsound.rows t ht).status, hscheduled.waiting, ?_, ?_⟩
  · intro hclosed
    exact hscheduled.closed (by simpa [closedStatuses] using hclosed)
  · intro hopen now hstuck hnext
    have hs : t.status ∈ stuckStatuses ++ [.pendingVerification] := by
      simpa [stuckStatuses] using hopen
    refine ⟨due_of_passed hscheduled hs hstuck hnext, ?_⟩
    intro bs s' hbs k p p'' act s'' hp hid hclock hstep hp'' hnot
    have hdated := run_snapshotsDated h₀ (Runs.run_append.mpr ⟨s, h, hbs⟩)
    obtain ⟨t', ht', hterms, -⟩ := run_transfer h₀ h hbs
      (Table.lookup_of_mem hsound.transferIds ht)
    cases step_inv hstep with
    | reconcile hp₁ hm =>
        rw [hp] at hp₁
        cases hp₁
        have hlt := (List.getElem?_eq_some_iff.mp hp).1
        simp only [List.getElem?_set_self hlt, Option.some.injEq] at hp''
        obtain ⟨now', snap, rfl, hpc, hearly⟩ := hm.notDue (by rw [← hp''] at hnot; exact hnot)
        obtain ⟨t₁, ht₁, hdate⟩ := hdated k p snap hp hpc
        rw [hid, ht'] at ht₁
        cases ht₁
        rw [← hdate, hterms.createdAt] at hearly
        exact absurd (hstuck.trans (hclock now' rfl)) (not_le.mpr hearly)

end

/-- A debit nobody finishes. -/
def abandonedRun : List Action :=
  admission 0 "user_alice" "key-1" sampleBody 5 ++
    [.request 0 (.debit 5 5 sampleTransferId), .request 0 .crash]

theorem abandonedRun_runs :
    (Runs.run (step sampleConfig) freshState abandonedRun).any (fun s =>
      s.store.db.transfers.any fun t => decide (t.status = .sourceDebited ∧
        t.createdAt + sampleConfig.policy.stuckAfter ≤ 65 ∧ t.nextVerificationAt = none)) =
      true := by
  decide +kernel

theorem no_transfer_out_of_reach_abandonedRun :
    ∃ s t, Runs.run (step sampleConfig) freshState abandonedRun = some s ∧
      t ∈ s.store.db.transfers ∧ sampleConfig.policy.due 65 t = true := by
  obtain ⟨s, hs, hany⟩ := (Option.any_eq_true _ _).mp abandonedRun_runs
  obtain ⟨t, ht, hdec⟩ := List.any_eq_true.mp hany
  obtain ⟨hst, hstuck, hnext⟩ := of_decide_eq_true hdec
  refine ⟨s, t, hs, ht, ?_⟩
  obtain ⟨-, -, -, hreach⟩ := no_transfer_out_of_reach freshState_initial hs ht
  exact (hreach (.inl hst) 65 hstuck (by simp [hnext])).1

end LoyaltyTransfer
