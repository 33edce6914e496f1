/-
# `LoyaltyTransfer.Timing` — may a reconciler overtake a live request

The reconciler leaves a transfer alone for `stuckAfter` after its creation, and
believes a NOT_FOUND only `notFoundGrace` after it; the settings are checked so
that both windows outlast a partner call.  But the windows are measured from
`created_at`, the start of the debit transaction, and the deadline from the start
of the call, and nothing bounds the time between the two:

    created_at                          + max(stuckAfter, notFoundGrace)
    ├───────────────────────────────────┤ from here a NOT_FOUND reverses
              … any pause …   ├─────────┤
                              call        + partnerDeadline: attempts until here

**Proved here.**  In every timed run whose calls start early enough for the
windows, no attempt is sent after a reconciler reversed the transfer
(`no_attempt_after_reversal`); with the default settings a pause of 100 s breaks
it (`attempt_after_reversal`).
-/
import LoyaltyTransfer.Ownership

namespace LoyaltyTransfer

open Transaction

/-! ## Timed runs -/

/-- A reconciler reversed the transfer: the request never reached the partner, or
the partner does not know it. -/
def Transfer.ReversedByReconciler (t : Transfer) : Prop :=
  t.status = .reversed ∧
    (t.failureCode = some .transferInterrupted ∨ t.failureCode = some .partnerNotReceived)

/-- What the clocks may have read for an action that takes effect at `moment`.  A
transaction reads them before it commits; a call and its attempts start at the
instant they read. -/
def Action.readAt (moment : Time) : Action → Bool
  | .request _ (.debit now createdAt _) => decide (now ≤ moment) && decide (createdAt ≤ moment)
  | .request _ (.submit now) => decide (now ≤ moment)
  | .request _ (.call now) => decide (now = moment)
  | .request _ (.attempt now) => decide (now = moment)
  | .request _ (.outcome now wall) => decide (now ≤ moment) && decide (wall ≤ moment)
  | .claimDue now _ _ => decide (now ≤ moment)
  | .reconcile _ (.decide now) => decide (now ≤ moment)
  | .reconcile _ (.reverse wall) => decide (wall ≤ moment)
  | .reconcile _ (.apply now wall) => decide (now ≤ moment) && decide (wall ≤ moment)
  | .cleanup now _ _ => decide (now ≤ moment)
  | _ => true

structure Timed where
  clock : Time
  state : State

/-- An action at an instant: any time may have passed since the last one. -/
def timedStep (cfg : Config) (x : Timed) (e : Time × Action) : Option Timed :=
  if x.clock ≤ e.1 ∧ e.2.readAt e.1 then (step cfg x.state e.2).map fun s => ⟨e.1, s⟩ else none

/-- The call starts early enough: its last attempt comes before a reconciler may
give the transfer up. -/
def CallsInTime (cfg : Config) (x : Timed) (e : Time × Action) : Prop :=
  ∀ (i : Nat) now r record d t, e.2 = .request i (.call now) → x.state.requests[i]? = some r →
    r.pc = .submitted record d → x.state.store.db.transfer? d.transferId = some t →
    now + cfg.partnerDeadline ≤
      t.createdAt + max cfg.policy.stuckAfter cfg.policy.notFoundGrace

theorem timedStep_inv {cfg : Config} {x x' : Timed} {e : Time × Action}
    (h : timedStep cfg x e = some x') :
    x.clock ≤ x'.clock ∧ e.1 = x'.clock ∧ e.2.readAt x'.clock = true ∧
      Step cfg x.state e.2 x'.state := by
  simp only [timedStep] at h
  split at h
  · rename_i hclock
    obtain ⟨s', hs', rfl⟩ := Option.map_eq_some_iff.mp h
    exact ⟨hclock.1, rfl, hclock.2, step_inv hs'⟩
  · cases h

/-! ## Who still owns what -/

/-- The transfer a request has sent and has no recorded answer for. -/
def RequestPc.sent : RequestPc → Option String
  | .calling _ d _ | .answered _ d _ => some d.transferId
  | _ => none

/-- The transfer a request may still send attempts for. -/
def RequestPc.live : RequestPc → Option String
  | .submitted _ d | .calling _ d _ => some d.transferId
  | _ => none

/-- The transfer a reconcile has asked the partner about. -/
def ReconcilePc.asked : ReconcilePc → Bool
  | .asking _ | .resolving _ => true
  | _ => false

/-- While its request is live, a transfer is not touched before `stuckAfter`, nor
given up as never received before `notFoundGrace`. -/
structure Punctual (cfg : Config) (x : Timed) : Prop where
  caller : ∀ (i : Nat) r id, x.state.requests[i]? = some r → r.pc.sent = some id →
    (i, id) ∈ x.state.store.creditCalls
  live : ∀ (i : Nat) r id t, x.state.requests[i]? = some r → r.pc.live = some id →
    x.state.store.db.transfer? id = some t →
    t.status = .partnerSubmitted ∨ t.createdAt + cfg.policy.stuckAfter ≤ x.clock
  snapshots : ∀ (k : Nat) p snap, x.state.reconciles[k]? = some p → p.pc = .snapshotted snap →
    ∃ t, x.state.store.db.transfer? p.transferId = some t ∧ snap.createdAt = t.createdAt ∧
      (t.status ∈ stuckStatuses → snap.status ∈ stuckStatuses)
  asked : ∀ (k : Nat) p, x.state.reconciles[k]? = some p → p.pc.asked = true →
    ∃ t, x.state.store.db.transfer? p.transferId = some t ∧
      (t.status ∈ stuckStatuses → t.createdAt + cfg.policy.stuckAfter ≤ x.clock)
  notReceived : ∀ t ∈ x.state.store.db.transfers, t.status = .reversed →
    t.failureCode = some .partnerNotReceived → t.createdAt + cfg.policy.notFoundGrace ≤ x.clock
  calls : ∀ (i : Nat) r record d startedAt t, x.state.requests[i]? = some r →
    r.pc = .calling record d startedAt → x.state.store.db.transfer? d.transferId = some t →
    startedAt + cfg.partnerDeadline ≤
      t.createdAt + max cfg.policy.stuckAfter cfg.policy.notFoundGrace

/-! ## Steps -/

section

variable {s : State} {a : Action} {c : Cause} {t t' : Transfer}

/-- A transfer that left the first two statuses does not return to them. -/
theorem Advance.stuck (h : Advance c t t') (ht' : t'.status ∈ stuckStatuses) :
    t.status ∈ stuckStatuses := by
  cases h with
  | stay hs _ _ =>
      rw [hs] at ht'
      exact ht'
  | submitted _ hs =>
      rw [hs]
      decide
  | parked _ hs' => rcases hs' with hs' | hs' <;> rw [hs'] at ht' <;> cases ht' <;> contradiction
  | settled => simp [Transfer.settledAs, stuckStatuses] at ht'
  | reversed => simp [Transfer.reversedAs, stuckStatuses] at ht'

/-- Who moves a submitted transfer on records an answer for it. -/
theorem Advance.recorded (h : Advance c t t') (ht : t.status = .partnerSubmitted) :
    t'.status = .partnerSubmitted ∨ c.records t.id := by
  cases h with
  | stay hs _ _ => exact .inl (hs.trans ht)
  | submitted _ hs => rw [ht] at hs; cases hs
  | parked _ _ hrec => exact .inr hrec
  | settled _ _ hrec => exact .inr hrec
  | reversed _ hrec => exact .inr (hrec (by rw [ht]; simp))

/-- A transfer is given up as never received after its grace. -/
theorem Advance.notReceived (h : Advance c t t') (hs : t'.status = .reversed)
    (hf : t'.failureCode = some .partnerNotReceived) :
    (t.status = .reversed ∧ t.failureCode = some .partnerNotReceived) ∨ c.late t := by
  cases h with
  | stay hs' hf' _ => exact .inl ⟨hs'.symm.trans hs, hf'.symm.trans hf⟩
  | submitted => cases hs
  | parked _ hs' => rw [hs] at hs'; rcases hs' with hs' | hs' <;> cases hs'
  | settled => cases hs
  | reversed hbecause =>
      cases hbecause with
      | notReceived _ hlate => exact .inr hlate
      | rejected => cases hf
      | unavailable => cases hf
      | interrupted => cases hf

/-- Nobody else records an answer for a transfer whose request is live. -/
theorem Owned.not_recorded {db₀ : Database} (howned : Owned db₀ s)
    (hcaller : ∀ (i : Nat) r id, s.requests[i]? = some r → r.pc.sent = some id →
      (i, id) ∈ s.store.creditCalls)
    {i : Nat} {r : Request} {id : String} (hr : s.requests[i]? = some r)
    (hlive : r.pc.live = some id) (hrec : s.records a id) :
    ∃ k now wall p, a = .reconcile k (.apply now wall) ∧ s.reconciles[k]? = some p ∧
      p.pc.asked = true ∧ p.transferId = id := by
  rcases hrec with ⟨j, now, wall, r', record, d, result, rfl, hr', hpc', rfl⟩ |
    ⟨k, now, wall, p, answer, rfl, hp, hpc, rfl⟩
  · exfalso
    have hj := hcaller j r' _ hr' (by rw [hpc']; rfl)
    cases hpc : r.pc with
    | submitted record' d' =>
        rw [hpc] at hlive
        have hpcs := howned.pcs i r hr
        rw [hpc] at hpcs
        have hid : d'.transferId = d.transferId := Option.some.inj hlive
        exact hpcs.1 (List.mem_map.mpr ⟨_, hj, hid.symm⟩)
    | calling record' d' startedAt =>
        rw [hpc] at hlive
        have hi := hcaller i r _ hr (by rw [hpc]; exact hlive)
        have heq := List.inj_on_of_nodup_map howned.once hi hj rfl
        cases heq
        rw [hr] at hr'
        cases hr'
        rw [hpc] at hpc'
        cases hpc'
    | _ => rw [hpc] at hlive; cases hlive
  · exact ⟨k, now, wall, p, rfl, hp, by rw [hpc]; rfl, rfl⟩

end

/-! ## The request's own moves -/

section

variable {cfg : Config} {st st' : Store} {r : Request} {i : Nat} {act : RequestAction}
  {pc : RequestPc} {id : String}

theorem sent_of_idle (h : pc.idle = true) : pc.sent = none := by
  cases pc <;> first | rfl | cases h

theorem live_of_idle (h : pc.idle = true) : pc.live = none := by
  cases pc <;> first | rfl | cases h

/-- A request has a call under way because it makes it or because it had. -/
theorem RequestMove.sent (hm : RequestMove cfg i r st act st' pc) (hs : pc.sent = some id) :
    r.pc.sent = some id ∨ (i, id) ∈ st'.creditCalls := by
  have hidle : pc.idle = true → False := fun h => by rw [sent_of_idle h] at hs; cases hs
  cases hm with
  | call hpc =>
      cases hs
      exact .inr (List.mem_append_right _ (List.mem_singleton_self _))
  | attempt => exact .inl hs
  | answer hpc =>
      rw [hpc]
      exact .inl hs
  | statement => exact (hidle (beginPc_idle _)).elim
  | debitRaised => exact (hidle (handlerRaised_idle _ _)).elim
  | findRaised => exact (hidle (handlerRaised_idle _ _)).elim
  | submitRaised => exact (hidle (handlerRaised_idle _ _)).elim
  | recordRaised => exact (hidle (handlerRaised_idle _ _)).elim
  | details => exact (hidle (detailsPc_idle _ _ _ _)).elim
  | fault h => exact (hidle (faulted_idle h)).elim
  | _ => cases hs

/-- A request is live because it just recorded the submission or because it was. -/
theorem RequestMove.live (hm : RequestMove cfg i r st act st' pc) (hl : pc.live = some id) :
    (r.pc.live = some id ∧ st'.db = st.db) ∨
      ∃ t, st'.db.transfer? id = some t ∧ t.status = .partnerSubmitted := by
  have hidle : pc.idle = true → False := fun h => by rw [live_of_idle h] at hl; cases hl
  cases hm with
  | @submitted now record d _ _ hpc hrun =>
      cases hl
      obtain ⟨t, event, ht, -, -, -, rfl⟩ := markSubmitted_change hrun
      have hid : t.id = d.transferId := Table.lookup_key ht
      rw [← hid] at ht ⊢
      exact .inr ⟨t.movedTo .partnerSubmitted now, transfer?_saved_self rfl ht rfl, rfl⟩
  | call hpc =>
      rw [hpc]
      exact .inl ⟨hl, rfl⟩
  | attempt => exact .inl ⟨hl, rfl⟩
  | statement => exact (hidle (beginPc_idle _)).elim
  | debitRaised => exact (hidle (handlerRaised_idle _ _)).elim
  | findRaised => exact (hidle (handlerRaised_idle _ _)).elim
  | submitRaised => exact (hidle (handlerRaised_idle _ _)).elim
  | recordRaised => exact (hidle (handlerRaised_idle _ _)).elim
  | details => exact (hidle (detailsPc_idle _ _ _ _)).elim
  | fault h => exact (hidle (faulted_idle h)).elim
  | _ => cases hl

end

/-! ## The invariant along a timed run -/

section

variable {cfg : Config} {db₀ : Database} {x x' : Timed} {e : Time × Action}

theorem Punctual.caller_step (hI : Punctual cfg x) (hstep : Step cfg x.state e.2 x'.state)
    {j : Nat} {r' : Request} {id : String} (hr' : x'.state.requests[j]? = some r')
    (hsent : r'.pc.sent = some id) : (j, id) ∈ x'.state.store.creditCalls := by
  have hkeep : ∀ y ∈ x.state.store.creditCalls, y ∈ x'.state.store.creditCalls := by
    intro y hy
    rcases hstep.creditCalls with heq | ⟨_, _, _, _, _, -, -, -, heq⟩
    · rw [heq]
      exact hy
    · rw [heq]
      exact List.mem_append_left _ hy
  rcases hstep.story hr' with ⟨hr, -⟩ | ⟨-, -, rfl⟩ | ⟨-, hr, hm, rfl⟩
  · exact hkeep _ (hI.caller j r' id hr hsent)
  · cases hsent
  · rcases hm.sent hsent with hsent | hnew
    · exact hkeep _ (hI.caller j _ id hr hsent)
    · exact hnew

theorem Punctual.live_step (hI : Punctual cfg x) (howned : Owned db₀ x.state)
    (hchange : Change (x.state.cause cfg e.2) x.state.store.db x'.state.store.db)
    (hclock : x.clock ≤ x'.clock) (hstep : Step cfg x.state e.2 x'.state) {j : Nat}
    {r' : Request} {id : String} {t' : Transfer} (hr' : x'.state.requests[j]? = some r')
    (hlive : r'.pc.live = some id) (ht' : x'.state.store.db.transfer? id = some t') :
    t'.status = .partnerSubmitted ∨ t'.createdAt + cfg.policy.stuckAfter ≤ x'.clock := by
  rcases hstep.story hr' with ⟨hr, -⟩ | ⟨-, -, rfl⟩ | ⟨-, hr, hm, rfl⟩
  · have hpcs := howned.pcs j r' hr
    obtain ⟨t, ht⟩ : ∃ t, x.state.store.db.transfer? id = some t := by
      cases hpc : r'.pc with
      | submitted record d =>
          rw [hpc] at hpcs hlive
          cases hlive
          exact ⟨_, hpcs.2.2.choose_spec.1⟩
      | calling record d startedAt =>
          rw [hpc] at hpcs hlive
          cases hlive
          exact ⟨_, hpcs.2.choose_spec.1⟩
      | _ => rw [hpc] at hlive; cases hlive
    obtain ⟨y, hy, hterms, hadv⟩ := hchange.advance ht
    rw [ht'] at hy
    cases hy
    rw [hterms.createdAt]
    rcases hI.live j r' id t hr hlive ht with hsub | hstuck
    · rcases hadv.recorded hsub with hsub' | hrec
      · exact .inl hsub'
      · -- only a reconcile that has asked can have recorded it
        rw [show t.id = id from Table.lookup_key ht] at hrec
        obtain ⟨k, _, _, p, -, hp, hasked, rfl⟩ := howned.not_recorded hI.caller hr hlive hrec
        obtain ⟨z, hz, hwindow⟩ := hI.asked k p hp hasked
        rw [ht] at hz
        cases hz
        exact .inr ((hwindow (by rw [hsub]; decide)).trans hclock)
    · exact .inr (hstuck.trans hclock)
  · cases hlive
  · rcases hm.live hlive with ⟨hlive, hdb⟩ | ⟨t, ht, hst⟩
    · rw [hdb] at ht'
      rcases hI.live j _ id t' hr hlive ht' with hsub | hstuck
      · exact .inl hsub
      · exact .inr (hstuck.trans hclock)
    · rw [ht] at ht'
      cases ht'
      exact .inl hst

theorem Punctual.snapshots_step (hI : Punctual cfg x)
    (hchange : Change (x.state.cause cfg e.2) x.state.store.db x'.state.store.db)
    (hstep : Step cfg x.state e.2 x'.state) {k : Nat} {p' : Reconcile} {snap : Snapshot}
    (hp' : x'.state.reconciles[k]? = some p') (hpc' : p'.pc = .snapshotted snap) :
    ∃ t, x'.state.store.db.transfer? p'.transferId = some t ∧ snap.createdAt = t.createdAt ∧
      (t.status ∈ stuckStatuses → snap.status ∈ stuckStatuses) := by
  rcases hstep.reconcileStory hp' with hp | hstarted | ⟨-, hp, hm, rfl⟩
  · obtain ⟨t, ht, hcreated, hstuck⟩ := hI.snapshots k p' snap hp hpc'
    obtain ⟨t', ht', hterms, hadv⟩ := hchange.advance ht
    exact ⟨t', ht', hcreated.trans hterms.createdAt.symm, fun h => hstuck (hadv.stuck h)⟩
  · rw [hstarted] at hpc'
    cases hpc'
  · generalize x'.state.store = st at hm ⊢
    cases hm with
    | snapshotted hpc hrun =>
        cases hpc'
        obtain ⟨rfl, t, program, ht, -, rfl⟩ := snapshot_ok hrun
        exact ⟨t, ht, rfl, id⟩
    | decided hpc =>
        simp only [decidePc] at hpc'
        split at hpc' <;> cases hpc'
    | _ => cases hpc'

theorem decidePc_asked {now : Time} {snap : Snapshot} (h : (decidePc cfg now snap).asked = true) :
    snap.status ∈ stuckStatuses → snap.createdAt + cfg.policy.stuckAfter ≤ now := by
  intro hstuck
  simp only [decidePc] at h
  split at h
  · cases h
  · cases h
  · rename_i hdec
    cases reconcileDecision_ok.mp hdec with
    | ask _ _ hdue => exact hdue hstuck
  · cases h

theorem Punctual.asked_step (hI : Punctual cfg x)
    (hchange : Change (x.state.cause cfg e.2) x.state.store.db x'.state.store.db)
    (hclock : x.clock ≤ x'.clock) (hread : e.2.readAt x'.clock = true)
    (hstep : Step cfg x.state e.2 x'.state) {k : Nat} {p' : Reconcile}
    (hp' : x'.state.reconciles[k]? = some p') (hasked : p'.pc.asked = true) :
    ∃ t, x'.state.store.db.transfer? p'.transferId = some t ∧
      (t.status ∈ stuckStatuses → t.createdAt + cfg.policy.stuckAfter ≤ x'.clock) := by
  have hkeep : ∀ (p : Reconcile), x.state.reconciles[k]? = some p → p.pc.asked = true →
      ∃ t, x'.state.store.db.transfer? p.transferId = some t ∧
        (t.status ∈ stuckStatuses → t.createdAt + cfg.policy.stuckAfter ≤ x'.clock) := by
    intro p hp hasked
    obtain ⟨t, ht, hwindow⟩ := hI.asked k p hp hasked
    obtain ⟨t', ht', hterms, hadv⟩ := hchange.advance ht
    refine ⟨t', ht', fun h => ?_⟩
    rw [hterms.createdAt]
    exact (hwindow (hadv.stuck h)).trans hclock
  rcases hstep.reconcileStory hp' with hp | hstarted | @⟨p, _, _, ha, hp, hm, rfl⟩
  · exact hkeep p' hp hasked
  · rw [hstarted] at hasked
    cases hasked
  · generalize x'.state.store = st at hm hkeep ⊢
    cases hm with
    | @decided now snap hpc =>
        obtain ⟨t, ht, hcreated, hstuck⟩ := hI.snapshots k _ snap hp hpc
        refine ⟨t, ht, fun h => ?_⟩
        rw [← hcreated]
        rw [ha] at hread
        exact (decidePc_asked hasked (hstuck h)).trans (of_decide_eq_true hread)
    | status hpc => exact hkeep p hp (by rw [hpc]; rfl)
    | _ => cases hasked

theorem Punctual.notReceived_step (hI : Punctual cfg x) (hsound : Sound db₀ x.state.store.db)
    (hsound' : Sound db₀ x'.state.store.db)
    (hchange : Change (x.state.cause cfg e.2) x.state.store.db x'.state.store.db)
    (hclock : x.clock ≤ x'.clock) (hread : e.2.readAt x'.clock = true) {t' : Transfer}
    (ht' : t' ∈ x'.state.store.db.transfers) (hs : t'.status = .reversed)
    (hf : t'.failureCode = some .partnerNotReceived) :
    t'.createdAt + cfg.policy.notFoundGrace ≤ x'.clock := by
  by_cases hold : ∃ t ∈ x.state.store.db.transfers, t.id = t'.id
  · obtain ⟨t, ht, hid⟩ := hold
    obtain ⟨y, hy, hterms, hadv⟩ := hchange.advance (Table.lookup_of_mem hsound.transferIds ht)
    obtain rfl : y = t' := Table.eq_of_key_eq hsound'.transferIds (Table.lookup_mem hy) ht'
      ((Table.lookup_key hy).trans hid)
    rw [hterms.createdAt]
    rcases hadv.notReceived hs hf with ⟨hs, hf⟩ | ⟨k, now, wall, ha, hgrace⟩
    · exact (hI.notReceived t ht hs hf).trans hclock
    · rw [ha] at hread
      exact hgrace.trans (of_decide_eq_true (Bool.and_eq_true_iff.mp hread).1)
  · have hnew : ∀ y ∈ x.state.store.db.transfers, y.id ≠ t'.id := fun y hy heq =>
      hold ⟨y, hy, heq⟩
    obtain ⟨-, _, _, _, hopening⟩ := hchange.opened_of_new ht' hnew
    rw [hopening.status] at hs
    cases hs

theorem Punctual.calls_step (hI : Punctual cfg x) (howned : Owned db₀ x.state)
    (hchange : Change (x.state.cause cfg e.2) x.state.store.db x'.state.store.db)
    (hC : CallsInTime cfg x e) (hstep : Step cfg x.state e.2 x'.state) {j : Nat} {r' : Request}
    {record : Nat} {d : DebitedTransfer} {startedAt : Time} {t' : Transfer}
    (hr' : x'.state.requests[j]? = some r') (hpc' : r'.pc = .calling record d startedAt)
    (ht' : x'.state.store.db.transfer? d.transferId = some t') :
    startedAt + cfg.partnerDeadline ≤
      t'.createdAt + max cfg.policy.stuckAfter cfg.policy.notFoundGrace := by
  rcases hstep.story hr' with ⟨hr, -⟩ | ⟨-, -, rfl⟩ | ⟨ha, hr, hm, rfl⟩
  · have hpcs := howned.pcs j r' hr
    rw [hpc'] at hpcs
    obtain ⟨-, t, ht, -⟩ := hpcs
    obtain ⟨y, hy, hterms, -⟩ := hchange.advance ht
    rw [ht'] at hy
    cases hy
    rw [hterms.createdAt]
    exact hI.calls j r' record d startedAt t hr hpc' ht
  · cases hpc'
  · obtain ⟨hdb, hfrom⟩ := hm.calling hpc'
    rw [hdb] at ht'
    rcases hfrom with hcalling | ⟨rfl, hsub⟩
    · exact hI.calls j _ record d startedAt t' hr hcalling ht'
    · exact hC j startedAt _ record d t' ha hr hsub ht'

theorem Punctual.step (hs : Seeded db₀) (hsound : Sound db₀ x.state.store.db)
    (howned : Owned db₀ x.state) (hI : Punctual cfg x) (hC : CallsInTime cfg x e)
    (h : timedStep cfg x e = some x') : Punctual cfg x' := by
  obtain ⟨hclock, -, hread, hstep⟩ := timedStep_inv h
  have hchange := hstep.change (hsound.accountIds hs)
  exact {
    caller := fun _ _ _ hr hsent => hI.caller_step hstep hr hsent
    live := fun _ _ _ _ hr hlive ht => hI.live_step howned hchange hclock hstep hr hlive ht
    snapshots := fun _ _ _ hp hpc => hI.snapshots_step hchange hstep hp hpc
    asked := fun _ _ hp hasked => hI.asked_step hchange hclock hread hstep hp hasked
    notReceived := fun _ ht hst hf =>
      hI.notReceived_step hsound (hsound.change hs hchange) hchange hclock hread ht hst hf
    calls := fun _ _ _ _ _ _ hr hpc ht => hI.calls_step howned hchange hC hstep hr hpc ht }

theorem run_punctual {s₀ : State} {clock₀ : Time} {es : List (Time × Action)} (h₀ : Initial s₀)
    (hC : Runs.AllSteps (timedStep cfg) (CallsInTime cfg) ⟨clock₀, s₀⟩ es)
    (h : Runs.run (timedStep cfg) ⟨clock₀, s₀⟩ es = some x) :
    Sound s₀.store.db x.state.store.db ∧ Owned s₀.store.db x.state ∧ Punctual cfg x := by
  refine Runs.run_invariant_of (I := fun x => Sound s₀.store.db x.state.store.db ∧
    Owned s₀.store.db x.state ∧ Punctual cfg x) ?_ ?_ hC h
  · rintro x e x' ⟨hsound, howned, hI⟩ hCe hstep
    obtain ⟨-, -, -, hinv⟩ := timedStep_inv hstep
    exact ⟨hsound.change h₀.seeded (hinv.change (hsound.accountIds h₀.seeded)),
      howned.step h₀.seeded hsound hinv, hI.step h₀.seeded hsound howned hCe hstep⟩
  · refine ⟨h₀.seeded.sound, h₀.owned, ?_⟩
    constructor <;> simp [h₀.requests, h₀.reconciles, h₀.seeded.noTransfers]

/-- In a timed run whose calls start early enough for the reconciler's windows, an
attempt is sent only for a transfer that no reconciler has reversed. -/
theorem no_attempt_after_reversal {s₀ : State} {clock₀ : Time} {es : List (Time × Action)}
    (h₀ : Initial s₀) (hC : Runs.AllSteps (timedStep cfg) (CallsInTime cfg) ⟨clock₀, s₀⟩ es)
    (h : Runs.run (timedStep cfg) ⟨clock₀, s₀⟩ es = some x) {i : Nat} {now moment : Time}
    (hattempt : timedStep cfg x (moment, .request i (.attempt now)) = some x') :
    ∃ r record d startedAt t, x.state.requests[i]? = some r ∧
      r.pc = .calling record d startedAt ∧
      x.state.store.db.transfer? d.transferId = some t ∧ ¬ t.ReversedByReconciler := by
  obtain ⟨-, howned, hI⟩ := run_punctual h₀ hC h
  obtain ⟨hclock, -, hread, hstep⟩ := timedStep_inv hattempt
  have hnow : now = x'.clock := of_decide_eq_true hread
  generalize x'.state = s' at hstep
  cases hstep with
  | @request _ r _ _ _ hr hm =>
      cases hm with
      | @attempt _ startedAt record d hpc htime =>
          have hpcs := howned.pcs i r hr
          rw [hpc] at hpcs
          obtain ⟨-, t, ht, -, hpast⟩ := hpcs
          refine ⟨r, record, d, startedAt, t, hr, hpc, ht, ?_⟩
          rintro ⟨hst, hcode | hcode⟩
          · exact hpast.2 ⟨hst, hcode⟩
          · have hgrace := hI.notReceived t (Table.lookup_mem ht) hst hcode
            have hcalls := hI.calls i r record d startedAt t hr hpc ht
            rcases hI.live i r d.transferId t hr (by rw [hpc]; rfl) ht with hsub | hstuck
            · rw [hst] at hsub
              cases hsub
            · rcases max_choice cfg.policy.stuckAfter cfg.policy.notFoundGrace with hmax | hmax
              · rw [hmax] at hcalls
                linarith
              · rw [hmax] at hcalls
                linarith

end

/-! ## With the default settings -/

/-- All actions take effect at one instant. -/
def atInstant (moment : Time) (as : List Action) : List (Time × Action) :=
  as.map fun a => (moment, a)

/-- A request that goes straight to its call. -/
def promptRun : List (Time × Action) :=
  atInstant 5 (admission 0 "user_alice" "key-1" sampleBody 5 ++
    [.request 0 (.debit 5 5 sampleTransferId), .request 0 (.submit 5)]) ++
  [(5, .request 0 (.call 5))]

theorem promptRun_callsInTime :
    Runs.AllSteps (timedStep sampleConfig) (CallsInTime sampleConfig) ⟨0, freshState⟩
      promptRun := by
  refine Runs.allSteps_append.mpr ⟨Runs.allSteps_of_forall ?_, ?_⟩
  · intro e he x i now r record d t heq
    simp only [atInstant, List.mem_map] at he
    obtain ⟨a, ha, rfl⟩ := he
    have heq : a = .request i (.call now) := heq
    subst heq
    simp [admission] at ha
  · intro x hx
    have hall : (Runs.run (timedStep sampleConfig) ⟨0, freshState⟩ (atInstant 5
        (admission 0 "user_alice" "key-1" sampleBody 5 ++
          [.request 0 (.debit 5 5 sampleTransferId), .request 0 (.submit 5)]))).all (fun x =>
        x.state.store.db.transfers.all fun t => decide (t.createdAt = 5)) = true := by
      decide +kernel
    rw [hx, Option.all_some, List.all_eq_true] at hall
    refine ⟨?_, fun _ _ => trivial⟩
    intro i now r record d t heq _ _ ht
    cases heq
    rw [of_decide_eq_true (hall t (Table.lookup_mem ht))]
    decide +kernel

theorem no_attempt_after_reversal_promptRun :
    ∃ x x', Runs.run (timedStep sampleConfig) ⟨0, freshState⟩ promptRun = some x ∧
      timedStep sampleConfig x (6, .request 0 (.attempt 6)) = some x' ∧
      ∃ r record d startedAt t, x.state.requests[0]? = some r ∧
        r.pc = .calling record d startedAt ∧
        x.state.store.db.transfer? d.transferId = some t ∧ ¬ t.ReversedByReconciler := by
  have hany : (Runs.run (timedStep sampleConfig) ⟨0, freshState⟩ promptRun).any (fun x =>
      (timedStep sampleConfig x (6, .request 0 (.attempt 6))).isSome) = true := by
    decide +kernel
  obtain ⟨x, hx, hsome⟩ := (Option.any_eq_true _ _).mp hany
  obtain ⟨x', hx'⟩ := Option.isSome_iff_exists.mp hsome
  exact ⟨x, x', hx, hx', no_attempt_after_reversal freshState_initial promptRun_callsInTime hx hx'⟩

/-- The process pauses for 100 s after its debit; a reconciler asks the partner
between the call and its first attempt. -/
def pausedRun : List (Time × Action) :=
  atInstant 5 (admission 0 "user_alice" "key-1" sampleBody 5 ++
    [.request 0 (.debit 5 5 sampleTransferId)]) ++
  atInstant 105 [.request 0 (.submit 105), .request 0 (.call 105),
    .startReconcile sampleTransferId, .reconcile 0 .snapshot, .reconcile 0 (.decide 105),
    .reconcile 0 (.status (HttpPartnerAdapter.getCreditStatus (.ok ⟨404, none⟩))),
    .reconcile 0 (.apply 105 105)]

/-- The partner call a request is in. -/
def RequestPc.calling? : RequestPc → Option (Nat × DebitedTransfer × Time)
  | .calling record d startedAt => some (record, d, startedAt)
  | _ => none

theorem RequestPc.calling?_eq_some {pc : RequestPc} {record : Nat} {d : DebitedTransfer}
    {startedAt : Time} :
    pc.calling? = some (record, d, startedAt) ↔ pc = .calling record d startedAt := by
  cases pc <;> simp [calling?]

/-- The reconciler has reversed the transfer, and the attempt is sent. -/
theorem attempt_after_reversal :
    ({} : Settings).Accepted ∧
    ∃ x x' r record d startedAt t,
      Runs.run (timedStep sampleConfig) ⟨0, freshState⟩ pausedRun = some x ∧
      timedStep sampleConfig x (106, .request 0 (.attempt 106)) = some x' ∧
      x.state.requests[0]? = some r ∧ r.pc = .calling record d startedAt ∧
      x.state.store.db.transfer? d.transferId = some t ∧ t.ReversedByReconciler := by
  refine ⟨defaults_accepted, ?_⟩
  have hany : (Runs.run (timedStep sampleConfig) ⟨0, freshState⟩ pausedRun).any (fun x =>
      (timedStep sampleConfig x (106, .request 0 (.attempt 106))).isSome &&
      (x.state.requests[0]?).any fun r => r.pc.calling?.any fun c =>
        (x.state.store.db.transfer? c.2.1.transferId).any fun t =>
          decide (t.status = .reversed ∧ t.failureCode = some .partnerNotReceived)) = true := by
    decide +kernel
  obtain ⟨x, hx, hboth⟩ := (Option.any_eq_true _ _).mp hany
  obtain ⟨hsome, hrequest⟩ := Bool.and_eq_true_iff.mp hboth
  obtain ⟨x', hx'⟩ := Option.isSome_iff_exists.mp hsome
  obtain ⟨r, hr, hcalling⟩ := (Option.any_eq_true _ _).mp hrequest
  obtain ⟨⟨record, d, startedAt⟩, hpc, htransfer⟩ := (Option.any_eq_true _ _).mp hcalling
  obtain ⟨t, ht, hst⟩ := (Option.any_eq_true _ _).mp htransfer
  obtain ⟨hst, hcode⟩ := of_decide_eq_true hst
  exact ⟨x, x', r, record, d, startedAt, t, hx, hx', hr, RequestPc.calling?_eq_some.mp hpc, ht,
    hst, .inr hcode⟩

end LoyaltyTransfer
