/-
# `LoyaltyTransfer.Verdicts` — what a reconcile reports stays true

`reconcile` ends with a result, and the admin route answers it together with the
transfer as it reads it then:

    COMPLETED, REVERSED, MANUAL_REVIEW     the transfer was closed so, by this reconcile
    RETRY_SCHEDULED                        it is being verified
    ALREADY_RESOLVED                       closed, or moved on while the reconcile looked
    NOT_DUE                                too young to tell

Between the reconcile and the read, and ever after, requests and other reconciles go on.

**Proved here.**  Whatever they do, the transfer in the answer bears the result out; and
of all reconciles of a transfer at most one reports an outcome, so that each is counted
once (`reconcile_reports`).
-/
import LoyaltyTransfer.Verification
import LoyaltyTransfer.Views

namespace LoyaltyTransfer

open Transaction

/-! ## Results -/

/-- `_OUTCOME_RESULTS`: the results that are counted. -/
def outcomeResults : List ReconcileResult := [.completed, .reversed, .manualReview]

/-- What a result says of the transfer. -/
def ReconcileResult.Tells : ReconcileResult → TransferStatus → Prop
  | .completed, status => status = .completed
  | .reversed, status => status = .reversed
  | .manualReview, status => status = .manualReview
  | .retryScheduled, status => status ∉ [.pending, .sourceDebited, .partnerSubmitted]
  | .alreadyResolved, status => status ∉ [.pending, .sourceDebited]
  | .notDue, status => status ≠ .pending

/-- How far a transfer has come. -/
def TransferStatus.stage : TransferStatus → Nat
  | .pending => 0
  | .sourceDebited => 1
  | .partnerSubmitted => 2
  | .pendingVerification => 3
  | .completed | .reversed | .manualReview => 4

/-- What a reconcile has seen of its transfer, where it stands. -/
def ReconcilePc.Knows : ReconcilePc → TransferStatus → Prop
  | .snapshotted snap, status => 0 < snap.status.stage ∧ snap.status.stage ≤ status.stage
  | .reversing, status => 0 < status.stage
  | .asking _, status | .resolving _, status => 1 < status.stage
  | .finished r, status => r.Tells status
  | .started, _ | .stopped _, _ => True

structure ReconcileOut where
  result : ReconcileResult
  transfer : TransferOut

/-- `get_transfer_details` for nobody in particular. -/
def Database.anyTransferDetails? (db : Database) (transferId : String) : Option TransferOut :=
  (db.transfer? transferId).bind fun t => db.transferDetails? transferId t.userId

/-- The route `POST /v1/admin/transfers/{transfer_id}/reconcile`, its reconcile done. -/
def Database.reconcileTransfer (db : Database) (transferId : String) (result : ReconcileResult) :
    Except DomainError ReconcileOut :=
  if transferIdFormat transferId then
    match db.anyTransferDetails? transferId with
    | some out => pure ⟨result, out⟩
    | none => throw transferNotFound
  else throw transferNotFound

section

variable {status status' : TransferStatus} {r : ReconcileResult} {pc : ReconcilePc}

theorem tells_outcome (h : r.Tells status) (hr : r ∈ outcomeResults) :
    status ∈ closedStatuses := by
  simp only [outcomeResults, List.mem_cons, List.not_mem_nil, or_false] at hr
  rcases hr with rfl | rfl | rfl <;> cases h <;> simp [closedStatuses]

/-- A result stays true as the transfer goes on, for no closed transfer does. -/
theorem ReconcileResult.Tells.later (h : r.Tells status) (hstage : status.stage ≤ status'.stage)
    (hclosed : status ∈ closedStatuses → status' = status) : r.Tells status' := by
  cases r with
  | completed =>
      obtain rfl : status = .completed := h
      exact hclosed (by simp [closedStatuses])
  | reversed =>
      obtain rfl : status = .reversed := h
      exact hclosed (by simp [closedStatuses])
  | manualReview =>
      obtain rfl : status = .manualReview := h
      exact hclosed (by simp [closedStatuses])
  | _ =>
      revert h hstage
      cases status <;> cases status' <;> simp [ReconcileResult.Tells, TransferStatus.stage]

theorem ReconcilePc.Knows.later (h : pc.Knows status) (hstage : status.stage ≤ status'.stage)
    (hclosed : status ∈ closedStatuses → status' = status) : pc.Knows status' := by
  cases pc with
  | snapshotted snap => exact ⟨h.1, le_trans h.2 hstage⟩
  | reversing => exact lt_of_lt_of_le h hstage
  | asking snap => exact lt_of_lt_of_le h hstage
  | resolving answer => exact lt_of_lt_of_le h hstage
  | finished r => exact ReconcileResult.Tells.later h hstage hclosed
  | _ => trivial

end

section

variable {c : Cause} {cfg : Config} {db₀ db db' : Database} {t t' : Transfer} {id : String}

theorem Advance.stage_le (h : Advance c t t') : t.status.stage ≤ t'.status.stage := by
  have hverifiable : t.status ∈ verifiableStatuses → t.status.stage ≤ 3 := by
    intro hs
    simp only [verifiableStatuses, List.mem_cons, List.not_mem_nil, or_false] at hs
    rcases hs with hs | hs <;> rw [hs] <;> decide
  cases h with
  | stay hs => rw [hs]
  | submitted _ hs =>
      rw [hs]
      show 1 ≤ 2
      decide
  | parked hs hs' =>
      refine le_trans (hverifiable hs) ?_
      rcases hs' with hs' | hs' <;> rw [hs'] <;> decide
  | settled hs => exact le_trans (hverifiable hs) (by show 3 ≤ 4; decide)
  | reversed hs =>
      show t.status.stage ≤ 4
      cases t.status <;> decide

/-- What is known of a transfer stays so. -/
theorem Change.knows (hc : Change c db db') (ht : db.transfer? id = some t) {pc : ReconcilePc}
    (h : pc.Knows t.status) : ∃ t', db'.transfer? id = some t' ∧ pc.Knows t'.status := by
  obtain ⟨t', ht', -, hadv⟩ := hc.advance ht
  refine ⟨t', ht', h.later hadv.stage_le ?_⟩
  intro hclosed
  obtain ⟨x, hx, hst, -⟩ := hc.closed ht hclosed
  rw [ht'] at hx
  cases hx
  exact hst

/-- A reconcile that has looked knows of its transfer. -/
def Informed (db : Database) (p : Reconcile) : Prop :=
  p.pc ≠ .started → (∀ f, p.pc ≠ .stopped f) →
    ∃ t, db.transfer? p.transferId = some t ∧ p.pc.Knows t.status

theorem Informed.change {p : Reconcile} (h : Informed db p) (hc : Change c db db') :
    Informed db' p := by
  intro hstarted hstopped
  obtain ⟨t, ht, hknows⟩ := h hstarted hstopped
  exact hc.knows ht hknows

theorem stage_pos {status : TransferStatus} (h : status ≠ .pending) : 0 < status.stage := by
  cases status <;> first | exact absurd rfl h | decide

theorem tells_resolved {status : TransferStatus} (h : 1 < status.stage) :
    ReconcileResult.alreadyResolved.Tells status := by
  show status ∉ [.pending, .sourceDebited]
  cases status <;> first | exact absurd h (by decide) | decide

theorem tells_scheduled : ReconcileResult.retryScheduled.Tells .pendingVerification := by
  show TransferStatus.pendingVerification ∉ [.pending, .sourceDebited, .partnerSubmitted]
  decide

theorem decidePc_knows {now : Time} {snap : Snapshot} {status : TransferStatus}
    (h : (ReconcilePc.snapshotted snap).Knows status) : (decidePc cfg now snap).Knows status := by
  obtain ⟨hpos, hle⟩ := h
  rw [decidePc]
  cases hdec : reconcileDecision cfg.policy now snap with
  | error f => trivial
  | ok d =>
      cases reconcileDecision_ok.mp hdec with
      | resolved hclosed =>
          refine tells_resolved (lt_of_lt_of_le ?_ hle)
          cases hst : snap.status <;>
            simp [hst, stuckStatuses, TransferStatus.stage] at hclosed hpos ⊢
      | young =>
          show status ≠ .pending
          rintro rfl
          exact absurd (lt_of_lt_of_le hpos hle) (lt_irrefl _)
      | interrupted => exact lt_of_lt_of_le hpos hle
      | ask hv =>
          show 1 < status.stage
          refine lt_of_lt_of_le ?_ hle
          cases hst : snap.status <;> simp [hst, verifiableStatuses, TransferStatus.stage] at hv ⊢

/-- A step of the reconcile itself. -/
theorem ReconcileMove.informed {p : Reconcile} {st st' : Store} {act : ReconcileAction}
    {pc : ReconcilePc} (hm : ReconcileMove cfg p st act st' pc)
    (hn : (st.db.accounts.map Account.id).Nodup)
    (hrows : ∀ t ∈ st.db.transfers, t.status ≠ .pending) (h : Informed st.db p) :
    Informed st'.db { p with pc } := by
  intro hstarted hstopped
  cases hm with
  | snapshotted hpc hrun =>
      obtain ⟨rfl, t, _, ht, -, rfl⟩ := snapshot_ok hrun
      exact ⟨t, ht, stage_pos (hrows t (Table.lookup_mem ht)), le_refl _⟩
  | @decided now snap hpc =>
      obtain ⟨t, ht, hknows⟩ := h (by simp [hpc]) (by simp [hpc])
      rw [hpc] at hknows
      exact ⟨t, ht, decidePc_knows hknows⟩
  | reversed hpc hrun =>
      obtain ⟨t, hid, ht, ⟨hst, rfl, rfl⟩ | ⟨hst, rfl, _, _, _, hrev⟩⟩ :=
        reverseInterrupted_inv hrun
      · rw [hid] at ht
        refine ⟨t, ht, ?_⟩
        show t.status ∉ [.pending, .sourceDebited]
        simp [hst, hrows t (Table.lookup_mem ht)]
      · obtain ⟨clearing, source, -, -, -, -, -, -, rfl⟩ := (reverseTransfer_ok hn).mp hrev
        show ∃ x, (saved _ _ _ _).transfer? p.transferId = some x ∧ x.status = .reversed
        rw [← hid]
        exact ⟨_, transfer?_saved_self rfl ht (sameTerms_reversedAs _ _ _ _).id, rfl⟩
  | status hpc =>
      obtain ⟨t, ht, hknows⟩ := h (by simp [hpc]) (by simp [hpc])
      rw [hpc] at hknows
      exact ⟨t, ht, hknows⟩
  | @applied now wall answer r db hpc hrun =>
      obtain ⟨t, ht, hknows⟩ := h (by simp [hpc]) (by simp [hpc])
      rw [hpc] at hknows
      have hid : t.id = p.transferId := Table.lookup_key ht
      rw [← hid] at ht hrun
      rcases applyStatus_recorded hn ht hrun with ⟨hst, rfl, rfl⟩ | ⟨hst, t', ht', hrec⟩
      · refine ⟨t, by rw [← hid]; exact ht, ?_⟩
        exact tells_resolved hknows
      · refine ⟨t', by rw [← hid]; exact ht', ?_⟩
        cases hrec with
        | settled => exact rfl
        | reversed => exact rfl
        | exhausted => exact rfl
        | early => exact tells_scheduled
        | counted => exact tells_scheduled
  | fault => exact absurd rfl (hstopped _)
  | snapshotRaised => exact absurd rfl (hstopped _)
  | reverseRaised => exact absurd rfl (hstopped _)
  | applyRaised => exact absurd rfl (hstopped _)

/-- Who reports an outcome found the transfer open. -/
theorem ReconcileMove.outcome {p : Reconcile} {st st' : Store} {act : ReconcileAction}
    {pc : ReconcilePc} (hm : ReconcileMove cfg p st act st' pc) {r : ReconcileResult}
    (hpc : pc = .finished r) (hr : r ∈ outcomeResults) :
    ∃ t, st.db.transfer? p.transferId = some t ∧ t.status ∉ closedStatuses := by
  cases hm with
  | decided =>
      simp only [decidePc] at hpc
      split at hpc
      · rename_i hdec
        cases hpc
        cases reconcileDecision_ok.mp hdec with
        | resolved => simp [outcomeResults] at hr
        | young => simp [outcomeResults] at hr
      · cases hpc
      · cases hpc
      · cases hpc
  | reversed _ hrun =>
      cases hpc
      obtain ⟨t, hid, ht, ⟨-, rfl, -⟩ | ⟨hst, -⟩⟩ := reverseInterrupted_inv hrun
      · simp [outcomeResults] at hr
      · rw [hid] at ht
        exact ⟨t, ht, by simp [hst, closedStatuses]⟩
  | applied _ hrun =>
      cases hpc
      obtain ⟨t, hid, ht, ⟨-, rfl, -⟩ | ⟨hv, -⟩⟩ := applyStatus_inv hrun
      · simp [outcomeResults] at hr
      · rw [hid] at ht
        exact ⟨t, ht, verifiable_open hv⟩
  | _ => cases hpc

/-- The transfer is shown, with its status. -/
theorem Sound.anyTransferDetails (h : Sound db₀ db) (hs : Seeded db₀)
    (ht : db.transfer? id = some t) :
    ∃ out, db.anyTransferDetails? id = some out ∧ out.id = id ∧ out.status = t.status := by
  have hrow := h.rows t (Table.lookup_mem ht)
  have hid : t.id = id := Table.lookup_key ht
  have hprogram : ∀ programId, (∃ p ∈ db₀.programs, p.id = programId) →
      ∃ p, db.program? programId = some p := by
    rintro programId ⟨p, hp, rfl⟩
    refine ⟨p, ?_⟩
    rw [Database.program?, h.programs]
    exact Table.lookup_of_mem hs.programIds hp
  obtain ⟨source, hsource⟩ := hprogram _ hrow.sourceProgram
  obtain ⟨destination, hdestination⟩ := hprogram _ hrow.destinationProgram
  have hfind : (db.transfers.find? fun x => decide (x.id = id ∧ x.userId = t.userId)) = some t := by
    obtain ⟨hkey, before, after, hrows, hnot⟩ := List.find?_eq_some_iff_append.mp ht
    refine List.find?_eq_some_iff_append.mpr ⟨by simp [hid], before, after, hrows, ?_⟩
    intro x hx
    have hne : x.id ≠ id := by simpa using hnot x hx
    simp [hne]
  refine ⟨transferOut t (db.updatedAt.transfers t.id) source.code destination.code (db.eventsOf id),
    ?_, hid, rfl⟩
  rw [Database.anyTransferDetails?, ht]
  exact Database.transferDetails?_eq_some.mpr ⟨t, source, destination, hfind, hsource,
    hdestination, rfl⟩

/-! ## Along a run -/

/-- Every reconcile knows what is so, and one of a transfer's reconciles reports an
outcome. -/
structure Truthful (db₀ : Database) (s : State) : Prop where
  sound : Sound db₀ s.store.db
  informed : ∀ (k : Nat) p, s.reconciles[k]? = some p → Informed s.store.db p
  once : ∀ (k k' : Nat) p p' r r', s.reconciles[k]? = some p → s.reconciles[k']? = some p' →
    p.pc = .finished r → p'.pc = .finished r' → r ∈ outcomeResults → r' ∈ outcomeResults →
    p.transferId = p'.transferId → k = k'

variable {s s' : State} {a : Action}

/-- A reported outcome closed the transfer. -/
theorem Truthful.closed (h : Truthful db₀ s) {k : Nat} {p : Reconcile} {r : ReconcileResult}
    (hp : s.reconciles[k]? = some p) (hpc : p.pc = .finished r) (hr : r ∈ outcomeResults) :
    ∃ t, s.store.db.transfer? p.transferId = some t ∧ t.status ∈ closedStatuses := by
  obtain ⟨t, ht, hknows⟩ := h.informed k p hp (by simp [hpc]) (by simp [hpc])
  rw [hpc] at hknows
  exact ⟨t, ht, tells_outcome hknows hr⟩

/-- Where an outcome was reported, no reconcile reports another. -/
theorem Truthful.no_other (h : Truthful db₀ s) {k : Nat} {p q : Reconcile} {st : Store}
    {act : ReconcileAction} {pc : ReconcilePc} {r r' : ReconcileResult}
    (hp : s.reconciles[k]? = some p) (hpc : p.pc = .finished r) (hr : r ∈ outcomeResults)
    (hm : ReconcileMove cfg q s.store act st pc) (hpc' : pc = .finished r')
    (hr' : r' ∈ outcomeResults) : p.transferId ≠ q.transferId := by
  intro hid
  obtain ⟨t, ht, hclosed⟩ := h.closed hp hpc hr
  obtain ⟨t', ht', hopen⟩ := hm.outcome hpc' hr'
  rw [← hid, ht] at ht'
  cases ht'
  exact hopen hclosed

theorem Truthful.step (h : Truthful db₀ s) (hs : Seeded db₀) (hstep : Step cfg s a s') :
    Truthful db₀ s' where
  sound := h.sound.change hs (hstep.change (h.sound.accountIds hs))
  informed := by
    intro k p' hp'
    have hchange := hstep.change (h.sound.accountIds hs)
    rcases hstep.reconcileStory hp' with hp | hstarted | @⟨p, _, _, -, hp, hm, rfl⟩
    · exact (h.informed k p' hp).change hchange
    · exact fun hne => absurd hstarted hne
    · exact hm.informed (h.sound.accountIds hs) (fun t ht => (h.sound.rows t ht).status)
        (h.informed k p hp)
  once := by
    intro k k' p p' r r' hp hp' hpc hpc' hr hr' hid
    rcases hstep.reconcileStory hp with hp | hstarted | @⟨q, _, _, ha, hq, hm, rfl⟩
    · rcases hstep.reconcileStory hp' with hp' | hstarted | @⟨q', _, _, -, hq', hm', rfl⟩
      · exact h.once k k' p p' r r' hp hp' hpc hpc' hr hr' hid
      · rw [hstarted] at hpc'
        cases hpc'
      · exact absurd hid (h.no_other (q := q') hp hpc hr hm' hpc' hr')
    · rw [hstarted] at hpc
      cases hpc
    · rcases hstep.reconcileStory hp' with hp' | hstarted | @⟨q', _, _, ha', hq', hm', rfl⟩
      · exact absurd hid.symm (h.no_other (q := q) hp' hpc' hr' hm hpc hr)
      · rw [hstarted] at hpc'
        cases hpc'
      · rw [ha] at ha'
        cases ha'
        rfl

theorem run_truthful {s₀ : State} {as : List Action} (h₀ : Initial s₀)
    (h : Runs.run (LoyaltyTransfer.step cfg) s₀ as = some s) : Truthful s₀.store.db s := by
  refine Runs.run_invariant (I := fun s => Truthful s₀.store.db s) ?_ ?_ h
  · intro s a s' hs hstep
    exact hs.step h₀.seeded (step_inv hstep)
  · refine ⟨h₀.seeded.sound, ?_, ?_⟩ <;> simp [h₀.reconciles]

/-- A reconcile that has ended stays as it ended. -/
theorem finished_stays {k : Nat} {p : Reconcile} {r : ReconcileResult} {bs : List Action}
    (hp : s.reconciles[k]? = some p) (hpc : p.pc = .finished r)
    (h : Runs.run (LoyaltyTransfer.step cfg) s bs = some s') : s'.reconciles[k]? = some p := by
  refine Runs.run_invariant (I := fun x => x.reconciles[k]? = some p) ?_ hp h
  intro x a x' hx hstep
  have hlt := (List.getElem?_eq_some_iff.mp hx).1
  cases a with
  | reconcile j act =>
      by_cases hjk : j = k
      · subst hjk
        have hnone : reconcileStep cfg p x.store act = none := by
          cases act <;> simp [reconcileStep, hpc]
        simp [LoyaltyTransfer.step, hx, hnone] at hstep
      · cases step_inv hstep with
        | reconcile =>
            show (x.reconciles.set j _)[k]? = some p
            rw [List.getElem?_set_ne hjk]
            exact hx
  | startReconcile transferId =>
      cases step_inv hstep
      show (x.reconciles ++ _)[k]? = some p
      rw [List.getElem?_append_left hlt]
      exact hx
  | claimDue =>
      cases step_inv hstep with
      | claimDue => exact hx
      | claimRaised => exact hx
  | _ =>
      cases step_inv hstep
      exact hx

/-- A reconcile has ended with a result.  Whatever happens after that, the admin route
shows the transfer as the result says it; and where the result is an outcome, no other
reconcile of the transfer ever reports one. -/
theorem reconcile_reports {s₀ : State} {as bs : List Action} {k : Nat} {p : Reconcile}
    {r : ReconcileResult} (h₀ : Initial s₀)
    (h : Runs.run (LoyaltyTransfer.step cfg) s₀ as = some s) (hp : s.reconciles[k]? = some p)
    (hpc : p.pc = .finished r) (h' : Runs.run (LoyaltyTransfer.step cfg) s bs = some s') :
    (∃ out, s'.store.db.reconcileTransfer p.transferId r = .ok ⟨r, out⟩ ∧
      out.id = p.transferId ∧ r.Tells out.status) ∧
    (r ∈ outcomeResults → ∀ (k' : Nat) p' r', s'.reconciles[k']? = some p' →
      p'.pc = .finished r' → r' ∈ outcomeResults → p'.transferId = p.transferId → k' = k) := by
  have hrun := Runs.run_append.mpr ⟨s, h, h'⟩
  have htruth := run_truthful h₀ hrun
  have hp' := finished_stays hp hpc h'
  constructor
  · obtain ⟨t, ht, hknows⟩ := htruth.informed k p hp' (by simp [hpc]) (by simp [hpc])
    rw [hpc] at hknows
    have hformat : transferIdFormat p.transferId = true := by
      rw [← Table.lookup_key ht]
      exact ((run_audited h₀ hrun).2.valid t (Table.lookup_mem ht)).idFormat
    obtain ⟨out, hout, hid, hstatus⟩ := htruth.sound.anyTransferDetails h₀.seeded ht
    refine ⟨out, ?_, hid, by rw [hstatus]; exact hknows⟩
    rw [Database.reconcileTransfer, if_pos hformat, hout]
    rfl
  · intro hr k' p' r' hk' hpc' hr' hid
    exact htruth.once k' k p' p r' r hk' hp' hpc' hpc hr' hr hid

end

def ReconcilePc.result? : ReconcilePc → Option ReconcileResult
  | .finished r => some r
  | _ => none

theorem result?_eq_some {pc : ReconcilePc} {r : ReconcileResult} (h : pc.result? = some r) :
    pc = .finished r := by
  cases pc <;> cases h
  rfl

/-- The first of two reconciles learns that the partner has no such credit. -/
def reportedRun : List Action :=
  submittedRun ++
    [.startReconcile sampleTransferId, .reconcile 0 .snapshot, .startReconcile sampleTransferId,
      .reconcile 1 .snapshot, .reconcile 0 (.decide 1000), .reconcile 1 (.decide 1000),
      .reconcile 0 (.status creditNotFound), .reconcile 0 (.apply 1000 1000)]

/-- The second comes too late. -/
def lateRun : List Action :=
  [.reconcile 1 (.status creditNotFound), .reconcile 1 (.apply 1001 1001)]

theorem reportedRun_runs :
    (Runs.run (step sampleConfig) freshState reportedRun).any (fun s =>
      ((s.reconciles[0]?).any fun p =>
        decide (p.transferId = sampleTransferId ∧ p.pc.result? = some .reversed)) &&
      (Runs.run (step sampleConfig) s lateRun).isSome) = true := by
  decide +kernel

theorem reconcile_reports_lateRun :
    ∃ s s', Runs.run (step sampleConfig) freshState reportedRun = some s ∧
      Runs.run (step sampleConfig) s lateRun = some s' ∧
      ∃ out, s'.store.db.reconcileTransfer sampleTransferId .reversed = .ok ⟨.reversed, out⟩ ∧
        out.status = .reversed := by
  obtain ⟨s, hs, hany⟩ := (Option.any_eq_true _ _).mp reportedRun_runs
  obtain ⟨hfinished, hruns⟩ := (Bool.and_eq_true _ _).mp hany
  obtain ⟨p, hp, hpc⟩ := (Option.any_eq_true _ _).mp hfinished
  obtain ⟨hid, hresult⟩ := of_decide_eq_true hpc
  obtain ⟨s', hs'⟩ := Option.isSome_iff_exists.mp hruns
  obtain ⟨hshown, -⟩ := reconcile_reports freshState_initial hs hp (result?_eq_some hresult) hs'
  rw [hid] at hshown
  obtain ⟨out, hout, -, htells⟩ := hshown
  exact ⟨s, s', hs, hs', out, hout, htells⟩

end LoyaltyTransfer
