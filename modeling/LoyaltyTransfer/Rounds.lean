/-
# `LoyaltyTransfer.Rounds` — one transfer that fails, and the rest of its batch

`run_once` claims a batch and passes its transfers to `reconcile` one after another.
It catches nothing: an exception of one of them ends the round.  The worker logs it and
starts the next round at the next tick, and `claim_due` then selects by
`next_verification_at`, which the lease made the same for the whole batch, and by id.

    claimed      a   b   p   c   d
    passed       a   b   p!                   p raises, the round is over
    next round           p!  c   d            equal leases: the order is by id

**Proved here.**  In every run of rounds, every claimed transfer of every round is passed
to `reconcile` exactly when none but the last of its batch raises
(`every_claim_passed_iff`).  A transfer whose answer can never be stored keeps every later
transfer that is claimed with it from being reconciled, for good (`starved`).
-/
import LoyaltyTransfer.Verification
import LoyaltyTransfer.Workers

namespace LoyaltyTransfer

open Transaction

/-! ## One round -/

/-- `summary[result] = summary.get(result, 0) + 1`. -/
def addResult : List (ReconcileResult × Nat) → ReconcileResult → List (ReconcileResult × Nat)
  | [], result => [(result, 1)]
  | (r, n) :: rest, result =>
      if r = result then (r, n + 1) :: rest else (r, n) :: addResult rest result

/-- What a call of `run_once` meets: what others committed since the last round, the clock
of the claim, the rows other transactions hold, whether it is told to stop before it comes
to a transfer, and what a call of `reconcile` does. -/
structure Round where
  meanwhile : Database → Database
  now : Time
  batchSize : Nat
  locked : List String
  shouldStop : String → Bool
  reconcile : String → Database → Except Fault ReconcileResult × Database

/-- What it comes to: the transfers passed to `reconcile`, the summary or the exception,
and the database. -/
structure RoundResult where
  passed : List String
  outcome : Except Fault (List (ReconcileResult × Nat))
  db : Database

namespace Round

variable (r : Round) (policy : ReconciliationPolicy)

/-- The loop of `run_once`. -/
def resolve : List String → List (ReconcileResult × Nat) → Database → RoundResult
  | [], summary, db => ⟨[], .ok summary, db⟩
  | id :: ids, summary, db =>
      if r.shouldStop id then ⟨[], .ok summary, db⟩
      else
        match r.reconcile id db with
        | (.error f, db) => ⟨[id], .error f, db⟩
        | (.ok result, db) =>
            let rest := resolve ids (addResult summary result) db
            { rest with passed := id :: rest.passed }

def runOnce (db : Database) : RoundResult :=
  match (claimDue policy r.now r.batchSize r.locked).commit (r.meanwhile db) with
  | (.error f, db) => ⟨[], .error f, db⟩
  | (.ok claimed, db) => r.resolve claimed [] db

/-- The batch: a claim that raises claims nothing. -/
def claimed (db : Database) : List String :=
  match (claimDue policy r.now r.batchSize r.locked).commit (r.meanwhile db) with
  | (.error _, _) => []
  | (.ok claimed, _) => claimed

/-- The database once the batch is claimed. -/
def leasedDb (db : Database) : Database :=
  ((claimDue policy r.now r.batchSize r.locked).commit (r.meanwhile db)).2

/-- The database after a call of `reconcile` for each of `ids`. -/
def world (ids : List String) (db : Database) : Database :=
  ids.foldl (fun db id => (r.reconcile id db).2) db

/-- No call of `reconcile` but the last of the batch raises. -/
def OnlyLastRaises (db : Database) : Prop :=
  ∀ before id after, r.claimed policy db = before ++ id :: after → after ≠ [] →
    (r.reconcile id (r.world before (r.leasedDb policy db))).1.isOk = true

end Round

/-- The worker's loop: a round that raises is logged, and the next tick starts from what it
left. -/
def roundStep (policy : ReconciliationPolicy) (db : Database) (r : Round) : Option Database :=
  some (r.runOnce policy db).db

section

variable {r : Round} {policy : ReconciliationPolicy} {db : Database}
  {summary : List (ReconcileResult × Nat)} {id : String} {ids : List String}

/-- A claim leases what is due, or it raises. -/
theorem claim_cases (r : Round) (policy : ReconciliationPolicy) (db : Database) :
    (claimDue policy r.now r.batchSize r.locked).run (r.meanwhile db) =
        .ok (r.claimed policy db, r.leasedDb policy db) ∨
      r.claimed policy db = [] ∧ r.leasedDb policy db = r.meanwhile db := by
  rcases Tx.commit_cases (claimDue policy r.now r.batchSize r.locked) (r.meanwhile db) with
    ⟨claimed, db', hrun, hcommit⟩ | ⟨f, -, hcommit⟩
  · refine .inl ?_
    simp only [Round.claimed, Round.leasedDb, hcommit]
    exact hrun
  · exact .inr ⟨by simp only [Round.claimed, hcommit], by simp only [Round.leasedDb, hcommit]⟩

/-- The round passes on what the loop passes on, and leaves what it leaves. -/
theorem runOnce_eq :
    (r.runOnce policy db).passed =
        (r.resolve (r.claimed policy db) [] (r.leasedDb policy db)).passed ∧
      (r.runOnce policy db).db =
        (r.resolve (r.claimed policy db) [] (r.leasedDb policy db)).db := by
  rcases Tx.commit_cases (claimDue policy r.now r.batchSize r.locked) (r.meanwhile db) with
    ⟨claimed, db', -, hcommit⟩ | ⟨f, -, hcommit⟩
  · simp only [Round.runOnce, Round.claimed, Round.leasedDb, hcommit, and_self]
  · simp only [Round.runOnce, Round.claimed, Round.leasedDb, hcommit, Round.resolve, and_self]

/-- What the loop does at one transfer. -/
theorem resolve_cons (hstop : r.shouldStop id = false) :
    (∃ f db', r.reconcile id db = (.error f, db') ∧
      r.resolve (id :: ids) summary db = ⟨[id], .error f, db'⟩) ∨
    ∃ result db', r.reconcile id db = (.ok result, db') ∧
      (r.resolve (id :: ids) summary db).passed =
        id :: (r.resolve ids (addResult summary result) db').passed ∧
      (r.resolve (id :: ids) summary db).db =
        (r.resolve ids (addResult summary result) db').db := by
  cases hcall : r.reconcile id db with
  | mk out db' =>
      cases out with
      | error f => exact .inl ⟨f, db', rfl, by simp [Round.resolve, hstop, hcall]⟩
      | ok result =>
          refine .inr ⟨result, db', rfl, ?_, ?_⟩
          · simp [Round.resolve, hstop, hcall]
          · simp [Round.resolve, hstop, hcall]

/-- The loop comes to the end of its list exactly when only the last call may raise. -/
theorem resolve_passed_iff (hstop : ∀ id, r.shouldStop id = false) :
    (r.resolve ids summary db).passed = ids ↔
      ∀ before id after, ids = before ++ id :: after → after ≠ [] →
        (r.reconcile id (r.world before db)).1.isOk = true := by
  induction ids generalizing summary db with
  | nil => simp [Round.resolve]
  | cons x xs ih =>
      rcases resolve_cons (hstop x) with ⟨f, db', hcall, heq⟩ | ⟨result, db', hcall, hpassed, -⟩
      · rw [heq]
        constructor
        · intro hxs before id after hsplit hafter
          cases hxs
          have hlength := congrArg List.length hsplit
          simp only [List.length_append, List.length_cons, List.length_nil] at hlength
          exact absurd (List.length_eq_zero_iff.mp (by omega)) hafter
        · intro honly
          by_contra hne
          have hxs : xs ≠ [] := by
            rintro rfl
            exact hne rfl
          have hok := honly [] x xs rfl hxs
          simp only [Round.world, List.foldl_nil, hcall] at hok
          cases hok
      · rw [hpassed, List.cons.injEq, eq_self, true_and, ih]
        constructor
        · intro honly before id after hsplit hafter
          cases before with
          | nil =>
              obtain ⟨rfl, -⟩ := List.cons.inj hsplit
              simp only [Round.world, List.foldl_nil, hcall]
              rfl
          | cons y ys =>
              obtain ⟨rfl, hrest⟩ := List.cons.inj hsplit
              have hok := honly ys id after hrest hafter
              simp only [Round.world, List.foldl_cons, hcall] at hok ⊢
              exact hok
        · intro honly before id after hsplit hafter
          have hok := honly (x :: before) id after (by rw [hsplit, List.cons_append]) hafter
          simp only [Round.world, List.foldl_cons, hcall] at hok
          exact hok

theorem runOnce_passed_iff (hstop : ∀ id, r.shouldStop id = false) :
    (r.runOnce policy db).passed = r.claimed policy db ↔ r.OnlyLastRaises policy db := by
  rw [runOnce_eq.1]
  exact resolve_passed_iff hstop

/-- In every run of rounds that are not told to stop, whatever is claimed, raised and
committed: every claimed transfer of every round is passed to `reconcile` exactly when in
no round a transfer before the last raises. -/
theorem every_claim_passed_iff (policy : ReconciliationPolicy) (db : Database)
    {rounds : List Round} (hstop : ∀ r ∈ rounds, ∀ id, r.shouldStop id = false) :
    Runs.AllSteps (roundStep policy)
        (fun db r => (r.runOnce policy db).passed = r.claimed policy db) db rounds ↔
      Runs.AllSteps (roundStep policy) (fun db r => r.OnlyLastRaises policy db) db rounds := by
  induction rounds generalizing db with
  | nil => exact Iff.rfl
  | cons r rounds ih =>
      have hround : (r.runOnce policy db).passed = r.claimed policy db ↔
          r.OnlyLastRaises policy db := runOnce_passed_iff (hstop r (List.mem_cons_self ..))
      have hrest := fun db => ih db fun x hx => hstop x (List.mem_cons_of_mem _ hx)
      simp only [Runs.AllSteps, hround, hrest]

end

/-! ## `reconcile` itself -/

/-- What a call of `reconcile` meets: the clock when it decides, what the partner's client
returns or raises, and the clocks when the answer is recorded. -/
structure ReconcileInput where
  decidedAt : Time
  answer : Except String PartnerStatusResult
  appliedAt : Time
  wall : Time

def reconcile (policy : ReconciliationPolicy) (input : ReconcileInput) (transferId : String)
    (db : Database) : Except Fault ReconcileResult × Database :=
  match (snapshot transferId).commit db with
  | (.error f, db) => (.error f, db)
  | (.ok snap, db) =>
      match reconcileDecision policy input.decidedAt snap with
      | .error f => (.error f, db)
      | .ok (.answer r) => (.ok r, db)
      | .ok .reverseInterrupted => (reverseInterrupted input.wall transferId).commit db
      | .ok .askPartner =>
          match input.answer with
          | .error what => (.error (.runtime what), db)
          | .ok answer =>
              (applyStatus policy input.appliedAt input.wall transferId answer).commit db

/-- Where a reconcile stands when the call is over. -/
def ReconcilePc.over : Except Fault ReconcileResult → ReconcilePc
  | .ok r => .finished r
  | .error f => .stopped f

/-- Reconcile `k`, of transfer `id`, gets from `s` to where `out` says, with the database
that `out` says. -/
def ComesTo (cfg : Config) (k : Nat) (id : String) (s : State)
    (out : Except Fault ReconcileResult × Database) : Prop :=
  ∃ as s', Runs.run (step cfg) s as = some s' ∧ s'.store.db = out.2 ∧
    s'.reconciles[k]? = some ⟨id, .over out.1⟩

section

variable {cfg : Config} {k : Nat} {id : String} {s : State} {pc pc' : ReconcilePc}
  {a : ReconcileAction} {st : Store} {out : Except Fault ReconcileResult × Database}

theorem comesTo_over (hdb : s.store.db = out.2)
    (hp : s.reconciles[k]? = some ⟨id, .over out.1⟩) : ComesTo cfg k id s out :=
  ⟨[], s, rfl, hdb, hp⟩

/-- It makes a step of its own, and goes on from there. -/
theorem comesTo_step (hp : s.reconciles[k]? = some ⟨id, pc⟩)
    (h : reconcileStep cfg ⟨id, pc⟩ s.store a = some (st, pc'))
    (hrest : ∀ s', s'.store = st → s'.reconciles[k]? = some ⟨id, pc'⟩ →
      ComesTo cfg k id s' out) : ComesTo cfg k id s out := by
  have hlt := (List.getElem?_eq_some_iff.mp hp).1
  let s₁ : State := { s with store := st, reconciles := s.reconciles.set k ⟨id, pc'⟩ }
  have hstep : step cfg s (.reconcile k a) = some s₁ := by
    simp only [step, hp, h, Option.map_some, s₁]
  obtain ⟨as, s', hrun, hend⟩ := hrest s₁ rfl (List.getElem?_set_self hlt)
  exact ⟨_ :: as, s', Runs.run_cons_eq_some.mpr ⟨s₁, hstep, hrun⟩, hend⟩

/-- Its last step is a transaction. -/
theorem comesTo_tx {tx : DbTx ReconcileResult} (hp : s.reconciles[k]? = some ⟨id, pc⟩)
    (h : reconcileStep cfg ⟨id, pc⟩ s.store a = some (afterReconcileTx s.store tx .finished)) :
    ComesTo cfg k id s (tx.commit s.store.db) := by
  rcases Tx.commit_cases tx s.store.db with ⟨r, db, -, hcommit⟩ | ⟨f, -, hcommit⟩
  · simp only [afterReconcileTx, hcommit] at h
    refine comesTo_step hp h fun s' hst hp' => comesTo_over ?_ ?_
    · rw [hst, hcommit]
    · rw [hp', hcommit]
      rfl
  · simp only [afterReconcileTx, hcommit] at h
    refine comesTo_step hp h fun s' hst hp' => comesTo_over ?_ ?_
    · rw [hst, hcommit]
    · rw [hp', hcommit]
      rfl

end

/-- A call of `reconcile` nobody interferes with is a run of one of the engine's
reconciles. -/
theorem reconcile_run (cfg : Config) (s : State) (input : ReconcileInput) (id : String) :
    ∃ as s', Runs.run (step cfg) s (.startReconcile id :: as) = some s' ∧
      s'.store.db = (reconcile cfg.policy input id s.store.db).2 ∧
      s'.reconciles[s.reconciles.length]? =
        some ⟨id, .over (reconcile cfg.policy input id s.store.db).1⟩ := by
  have hcall : ComesTo cfg s.reconciles.length id
      { s with reconciles := s.reconciles ++ [⟨id, .started⟩] }
      (reconcile cfg.policy input id s.store.db) := by
    have hp : (s.reconciles ++ [⟨id, .started⟩])[s.reconciles.length]? =
        some (⟨id, .started⟩ : Reconcile) := by simp
    have hread : reconcileStep cfg ⟨id, .started⟩ s.store .snapshot =
        some (afterReconcileTx s.store (snapshot id) .snapshotted) := rfl
    rcases Tx.commit_cases (snapshot id) s.store.db with
      ⟨snap, db, -, hcommit⟩ | ⟨f, -, hcommit⟩
    · simp only [afterReconcileTx, hcommit] at hread
      simp only [reconcile, hcommit]
      refine comesTo_step hp hread fun s₁ hst₁ hp₁ => ?_
      have hdecide : reconcileStep cfg ⟨id, .snapshotted snap⟩ s₁.store
          (.decide input.decidedAt) = some (s₁.store, decidePc cfg input.decidedAt snap) := rfl
      have hdb : s₁.store.db = db := by rw [hst₁]
      subst hdb
      refine comesTo_step hp₁ hdecide fun s₂ hst₂ hp₂ => ?_
      rw [← hst₂]
      simp only [decidePc] at hp₂
      cases hdec : reconcileDecision cfg.policy input.decidedAt snap with
      | error f =>
          simp only [hdec] at hp₂ ⊢
          exact comesTo_over rfl hp₂
      | ok d =>
          cases d with
          | answer r =>
              simp only [hdec] at hp₂ ⊢
              exact comesTo_over rfl hp₂
          | reverseInterrupted =>
              simp only [hdec] at hp₂ ⊢
              exact comesTo_tx (a := .reverse input.wall) hp₂ rfl
          | askPartner =>
              simp only [hdec] at hp₂ ⊢
              cases hanswer : input.answer with
              | error what =>
                  simp only
                  refine comesTo_step (a := .fault what) hp₂ rfl fun s₃ hst₃ hp₃ => ?_
                  exact comesTo_over (by rw [hst₃]) hp₃
              | ok answer =>
                  simp only
                  refine comesTo_step (a := .status answer) hp₂ rfl fun s₃ hst₃ hp₃ => ?_
                  rw [← hst₃]
                  exact comesTo_tx (a := .apply input.appliedAt input.wall) hp₃ rfl
    · simp only [afterReconcileTx, hcommit] at hread
      simp only [reconcile, hcommit]
      refine comesTo_step hp hread fun s₁ hst₁ hp₁ => ?_
      exact comesTo_over (by rw [hst₁]) hp₁
  obtain ⟨as, s', hrun, hend⟩ := hcall
  exact ⟨as, s', Runs.run_cons_eq_some.mpr ⟨_, rfl, hrun⟩, hend⟩

/-! ## A transfer that can never be recorded -/

/-- The partner has the credit, under an id the column cannot hold. -/
def PartnerStatusResult.unstorable (answer : PartnerStatusResult) : Prop :=
  answer.status = .completed ∧
    ∃ confirmationId, nonempty answer.confirmationId = some confirmationId ∧
      fitsVarchar 128 confirmationId = false

section

variable {policy : ReconciliationPolicy} {input : ReconcileInput} {now wall : Time}
  {answer : PartnerStatusResult} {db₀ db db' : Database} {t : Transfer} {id other : String}

theorem applyStatus_unstorable (hn : (db.accounts.map Account.id).Nodup)
    (ht : db.transfer? t.id = some t) (hv : t.status ∈ verifiableStatuses)
    (hanswer : answer.unstorable) :
    ∃ f, (applyStatus policy now wall t.id answer).commit db = (.error f, db) := by
  obtain ⟨hst, confirmationId, hconf, hfits⟩ := hanswer
  rcases Tx.commit_cases (applyStatus policy now wall t.id answer) db with
    ⟨r, db', hrun, -⟩ | ⟨f, -, hcommit⟩
  · simp only [applyStatus, lockTransfer_bind ht, if_neg (not_not.mpr hv), recordStatus, hst, hconf,
      bind_pure_ok] at hrun
    obtain ⟨⟨_, hsettle⟩, -⟩ := hrun
    cases hfits.symm.trans (settled_fits hn hsettle).1
  · exact ⟨f, hcommit⟩

theorem verifiable_cases {status : TransferStatus} (h : status ∈ verifiableStatuses) :
    status = .partnerSubmitted ∨ status = .pendingVerification := by
  simpa [verifiableStatuses] using h

/-- It asks the partner, unless the clock is out of range. -/
theorem reconcileDecision_ask {snap : Snapshot} {d : ReconcileDecision}
    (hv : snap.status ∈ verifiableStatuses)
    (hstuck : snap.status = .partnerSubmitted → snap.createdAt + policy.stuckAfter ≤ now)
    (h : reconcileDecision policy now snap = .ok d) : d = .askPartner := by
  cases reconcileDecision_ok.mp h with
  | resolved hresolved =>
      refine absurd (List.mem_append.mpr ?_) hresolved
      rcases verifiable_cases hv with hst | hst <;> simp [hst, stuckStatuses]
  | young hs _ hearly =>
      rcases verifiable_cases hv with hst | hst
      · exact absurd hearly (not_lt.mpr (hstuck hst))
      · simp [hst, stuckStatuses] at hs
  | interrupted hst => rcases verifiable_cases hv with hst' | hst' <;> cases hst.symm.trans hst'
  | ask => rfl

/-- A call that asks the partner about it raises and changes nothing. -/
theorem reconcile_unstorable (hn : (db.accounts.map Account.id).Nodup)
    (ht : db.transfer? t.id = some t) (hv : t.status ∈ verifiableStatuses)
    (hstuck : t.status = .partnerSubmitted → t.createdAt + policy.stuckAfter ≤ input.decidedAt)
    (hanswer : input.answer = .ok answer) (hunstorable : answer.unstorable) :
    ∃ f, reconcile policy input t.id db = (.error f, db) := by
  rcases Tx.commit_cases (snapshot t.id) db with ⟨snap, db', hrun, hcommit⟩ | ⟨f, -, hcommit⟩
  · obtain ⟨rfl, t', _, ht', -, hsnap⟩ := snapshot_ok hrun
    cases ht.symm.trans ht'
    cases hdec : reconcileDecision policy input.decidedAt snap with
    | error f => exact ⟨f, by simp only [reconcile, hcommit, hdec]⟩
    | ok d =>
        obtain rfl : d = .askPartner := by
          rw [hsnap] at hdec
          exact reconcileDecision_ask hv hstuck hdec
        simp only [reconcile, hcommit, hdec, hanswer]
        exact applyStatus_unstorable hn ht hv hunstorable
  · exact ⟨f, by simp only [reconcile, hcommit]⟩

/-- What a call of `reconcile` commits. -/
theorem reconcile_inv (policy : ReconciliationPolicy) (input : ReconcileInput) (id : String)
    (db : Database) :
    (reconcile policy input id db).2 = db ∨
      (∃ r, (reverseInterrupted input.wall id).run db =
        .ok (r, (reconcile policy input id db).2)) ∨
      ∃ answer r, (applyStatus policy input.appliedAt input.wall id answer).run db =
        .ok (r, (reconcile policy input id db).2) := by
  rcases Tx.commit_cases (snapshot id) db with ⟨snap, db', hrun, hcommit⟩ | ⟨f, -, hcommit⟩
  · obtain ⟨rfl, -⟩ := snapshot_ok hrun
    simp only [reconcile, hcommit]
    cases reconcileDecision policy input.decidedAt snap with
    | error f => exact .inl rfl
    | ok d =>
        cases d with
        | answer r => exact .inl rfl
        | reverseInterrupted =>
            rcases Tx.commit_cases (reverseInterrupted input.wall id) db' with
              ⟨r, db₁, hrun, hcommit⟩ | ⟨f, -, hcommit⟩
            · exact .inr (.inl ⟨r, by simp only [hcommit]; exact hrun⟩)
            · exact .inl (by simp only [hcommit])
        | askPartner =>
            cases input.answer with
            | error what => exact .inl rfl
            | ok answer =>
                rcases Tx.commit_cases (applyStatus policy input.appliedAt input.wall id answer)
                  db' with ⟨r, db₁, hrun, hcommit⟩ | ⟨f, -, hcommit⟩
                · exact .inr (.inr ⟨answer, r, by simp only [hcommit]; exact hrun⟩)
                · exact .inl (by simp only [hcommit])
  · exact .inl (by simp only [reconcile, hcommit])

theorem transfer?_saved_other {db₁ : Database} {t' : Transfer} {events : List TransferEvent}
    {moment : Option Time} (hdb : db₁.transfers = db.transfers) (hne : other ≠ t'.id) :
    (saved db₁ t' events moment).transfer? other = db.transfer? other := by
  simp only [Database.transfer?, saved, hdb]
  exact Table.lookup_replace_other hne

/-- It leaves every other transfer as it is. -/
theorem reconcile_other (policy : ReconciliationPolicy) (input : ReconcileInput)
    (hn : (db.accounts.map Account.id).Nodup) (hne : other ≠ id) :
    (reconcile policy input id db).2.transfer? other = db.transfer? other := by
  rcases reconcile_inv policy input id db with heq | ⟨r, hrun⟩ | ⟨answer, r, hrun⟩
  · rw [heq]
  · generalize (reconcile policy input id db).2 = db' at hrun ⊢
    obtain ⟨t, rfl, -, ⟨-, -, rfl⟩ | ⟨-, -, _, _, _, hrun⟩⟩ := reverseInterrupted_inv hrun
    · rfl
    · obtain ⟨clearing, source, -, -, -, -, -, -, rfl⟩ := (reverseTransfer_ok hn).mp hrun
      exact transfer?_saved_other rfl hne
  · generalize (reconcile policy input id db).2 = db' at hrun ⊢
    obtain ⟨t, rfl, -, ⟨-, -, rfl⟩ | ⟨-, hrun⟩⟩ := applyStatus_inv hrun
    · rfl
    · obtain ⟨db₁, t', events, _, rfl, hdb, hrec⟩ := hrun.recorded hn
      exact transfer?_saved_other hdb (fun heq => hne (heq.trans hrec.id_eq))

/-- Whatever a change may rest on. -/
def Cause.any : Cause :=
  ⟨fun _ => True, fun _ => True, fun _ => True, fun _ _ => True, fun _ => True⟩

/-- It keeps the accounts sound. -/
theorem reconcile_sound (policy : ReconciliationPolicy) (input : ReconcileInput) (id : String)
    (hs : Seeded db₀) (h : Sound db₀ db) :
    Sound db₀ (reconcile policy input id db).2 := by
  have hn := h.accountIds hs
  rcases reconcile_inv policy input id db with heq | ⟨r, hrun⟩ | ⟨answer, r, hrun⟩
  · rw [heq]
    exact h
  · exact h.change (c := .any) hs (reverseInterrupted_change hn hrun)
  · exact h.change (c := .any) hs (applyStatus_change hn trivial (fun _ _ _ => trivial)
      (fun _ _ => trivial) hrun)

end

/-! ## Its neighbours -/

section

variable {policy : ReconciliationPolicy} {db₀ db : Database} {r : Round} {p t : String}
  {P T : Transfer} {ids : List String} {summary : List (ReconcileResult × Nat)}

theorem claimsBefore_total (a b : Transfer) :
    claimsBefore a b = true ∨ claimsBefore b a = true := by
  simp only [claimsBefore]
  cases a.nextVerificationAt with
  | none =>
      cases b.nextVerificationAt with
      | none => simpa using le_total a.id b.id
      | some y => exact .inl rfl
  | some x =>
      cases b.nextVerificationAt with
      | none => exact .inr rfl
      | some y =>
          rcases lt_trichotomy x y with hlt | rfl | hlt
          · exact .inl (by simp [hlt])
          · simpa using le_total a.id b.id
          · exact .inr (by simp [hlt])

theorem claimsBefore_trans {a b c : Transfer} (hab : claimsBefore a b = true)
    (hbc : claimsBefore b c = true) : claimsBefore a c = true := by
  simp only [claimsBefore] at *
  cases ha : a.nextVerificationAt <;> cases hb : b.nextVerificationAt <;>
    cases hc : c.nextVerificationAt <;> simp only [ha, hb, hc, Bool.or_eq_true, Bool.and_eq_true,
      decide_eq_true_eq, Bool.false_eq_true] at hab hbc ⊢
  · exact hab.trans hbc
  · rcases hab with hab | ⟨rfl, hab⟩
    · rcases hbc with hbc | ⟨rfl, -⟩
      · exact .inl (hab.trans hbc)
      · exact .inl hab
    · rcases hbc with hbc | ⟨rfl, hbc⟩
      · exact .inl hbc
      · exact .inr ⟨rfl, hab.trans hbc⟩

/-- Of two transfers with one lease the one with the smaller id comes first. -/
theorem claimsBefore_same {a b : Transfer} (hnext : a.nextVerificationAt = b.nextVerificationAt)
    (h : claimsBefore a b = true) : a.id ≤ b.id := by
  simp only [claimsBefore, hnext] at h
  cases hb : b.nextVerificationAt <;> simpa [hb] using h

theorem claimable_sorted (policy : ReconciliationPolicy) (now : Time) (batchSize : Nat)
    (locked : List String) (transfers : List Transfer) :
    (claimable policy now batchSize locked transfers).Pairwise
      fun a b => claimsBefore a b = true := by
  have : Std.Total fun a b : Transfer => claimsBefore a b = true := ⟨claimsBefore_total⟩
  have : IsTrans Transfer fun a b => claimsBefore a b = true := ⟨fun _ _ _ => claimsBefore_trans⟩
  exact (List.pairwise_insertionSort _ _).sublist (List.take_sublist ..)

/-- `t` does not come in the list before `p`. -/
def Shielded (p t : String) : List String → Prop
  | [] => True
  | id :: ids => id = p ∨ id ≠ t ∧ Shielded p t ids

theorem shielded_of_not_mem (h : t ∉ ids) : Shielded p t ids := by
  induction ids with
  | nil => trivial
  | cons id ids ih =>
      rw [List.mem_cons, not_or] at h
      exact .inr ⟨fun heq => h.1 heq.symm, ih h.2⟩

/-- The order of a claim puts the smaller id first when the leases are equal. -/
theorem shielded_of_sorted {l : List Transfer}
    (hsorted : l.Pairwise fun a b => claimsBefore a b = true)
    (hT : ∀ y ∈ l, y.id = T.id → y = T) (hP : P ∈ l) (hlt : P.id < T.id)
    (hnext : P.nextVerificationAt = T.nextVerificationAt) :
    Shielded P.id T.id (l.map Transfer.id) := by
  induction l with
  | nil => cases hP
  | cons x xs ih =>
      obtain ⟨hfirst, hrest⟩ := List.pairwise_cons.mp hsorted
      by_cases hx : x.id = P.id
      · exact .inl hx
      · have hPxs : P ∈ xs := by
          refine (List.mem_cons.mp hP).resolve_left ?_
          rintro rfl
          exact hx rfl
        refine .inr ⟨?_, ih hrest (fun y hy => hT y (List.mem_cons_of_mem _ hy)) hPxs⟩
        intro hid
        have heq := hT x (List.mem_cons_self ..) hid
        have hle := claimsBefore_same hnext.symm (heq ▸ hfirst P hPxs)
        exact absurd hlt (not_lt.mpr hle)

/-- A round in which the partner's answer about `p` cannot be stored, the clock does not
go back, and `p` and `t` are claimed together or not at all. -/
def Poisoned (policy : ReconciliationPolicy) (p t : String) (db : Database) (r : Round) : Prop :=
  ∃ (inputs : String → ReconcileInput) (answer : PartnerStatusResult),
    r.meanwhile db = db ∧ r.reconcile = (fun id => reconcile policy (inputs id) id) ∧
    r.now ≤ (inputs p).decidedAt ∧ (inputs p).answer = .ok answer ∧ answer.unstorable ∧
    (p ∈ r.claimed policy db ↔ t ∈ r.claimed policy db)

/-- The loop does not come to `t`, and leaves both rows as they are. -/
theorem resolve_shielded {inputs : String → ReconcileInput} (hs : Seeded db₀)
    (hcalls : r.reconcile = fun id => reconcile policy (inputs id) id) (hne : t ≠ p)
    (hraises : p ∈ ids → ∀ db, Sound db₀ db → db.transfer? p = some P →
      ∃ f, r.reconcile p db = (.error f, db))
    (hshielded : Shielded p t ids) (h : Sound db₀ db) (hP : db.transfer? p = some P)
    (hT : db.transfer? t = some T) :
    t ∉ (r.resolve ids summary db).passed ∧ Sound db₀ (r.resolve ids summary db).db ∧
      (r.resolve ids summary db).db.transfer? p = some P ∧
      (r.resolve ids summary db).db.transfer? t = some T := by
  induction ids generalizing summary db with
  | nil => exact ⟨List.not_mem_nil, h, hP, hT⟩
  | cons id ids ih =>
      by_cases hstop : r.shouldStop id = true
      · simp only [Round.resolve, hstop, if_true]
        exact ⟨List.not_mem_nil, h, hP, hT⟩
      · have hstop := Bool.eq_false_iff.mpr hstop
        by_cases hid : id = p
        · subst hid
          obtain ⟨f, hcall⟩ := hraises (List.mem_cons_self ..) db h hP
          simp only [Round.resolve, hstop, hcall, Bool.false_eq_true, if_false]
          exact ⟨fun hmem => hne (List.mem_singleton.mp hmem), h, hP, hT⟩
        · obtain ⟨hidt, hrest⟩ := hshielded.resolve_left hid
          -- another transfer: whatever becomes of it, the two rows stay
          have hn := h.accountIds hs
          have hdb : (r.reconcile id db).2 = (reconcile policy (inputs id) id db).2 := by
            rw [hcalls]
          have hsound := reconcile_sound policy (inputs id) id hs h
          have hP' := (reconcile_other policy (inputs id) hn (Ne.symm hid)).trans hP
          have hT' := (reconcile_other policy (inputs id) hn (Ne.symm hidt)).trans hT
          rw [← hdb] at hsound hP' hT'
          rcases resolve_cons hstop with ⟨f, db', hcall, heq⟩ |
            ⟨result, db', hcall, hpassed, hend⟩
          · rw [hcall] at hsound hP' hT'
            rw [heq]
            exact ⟨fun hmem => hidt (List.mem_singleton.mp hmem).symm, hsound, hP', hT'⟩
          · rw [hcall] at hsound hP' hT'
            rw [hpassed, hend]
            obtain ⟨hnot, hkept⟩ := ih (fun hmem => hraises (List.mem_cons_of_mem _ hmem)) hrest
              hsound hP' hT'
            exact ⟨fun hmem => (List.mem_cons.mp hmem).elim (fun heq => hidt heq.symm) hnot, hkept⟩

/-- The row of a transfer once the batch is claimed. -/
def Round.leasedRow (policy : ReconciliationPolicy) (r : Round) (db : Database) (x : Transfer) :
    Transfer :=
  if x.id ∈ r.claimed policy db then { x with nextVerificationAt := some (r.now + policy.lease) }
  else x

theorem leasedRow_terms (policy : ReconciliationPolicy) (r : Round) (db : Database) (x : Transfer) :
    (r.leasedRow policy db x).id = x.id ∧ (r.leasedRow policy db x).status = x.status ∧
      (r.leasedRow policy db x).createdAt = x.createdAt := by
  rw [Round.leasedRow]
  split <;> exact ⟨rfl, rfl, rfl⟩

theorem leasedDb_transfer? {x : Transfer} (hmeanwhile : r.meanwhile db = db)
    (hx : db.transfer? x.id = some x) :
    (r.leasedDb policy db).transfer? x.id = some (r.leasedRow policy db x) := by
  rcases claim_cases r policy db with hrun | ⟨hnone, hdb⟩
  · obtain ⟨-, -, hdb⟩ := claimDue_ok.mp hrun
    rw [hdb, hmeanwhile]
    refine lookup_map_id (fun y => ?_) hx
    by_cases hy : y.id ∈ r.claimed policy db <;> simp [hy]
  · rw [hdb, hmeanwhile, Round.leasedRow, hnone, if_neg List.not_mem_nil]
    exact hx

theorem leasedDb_sound (hs : Seeded db₀) (hmeanwhile : r.meanwhile db = db) (h : Sound db₀ db) :
    Sound db₀ (r.leasedDb policy db) := by
  rcases claim_cases r policy db with hrun | ⟨-, hdb⟩
  · rw [hmeanwhile] at hrun
    exact h.change (c := .any) hs (claimDue_change hrun)
  · rw [hdb, hmeanwhile]
    exact h

/-- A claimed transfer is among those that can be claimed. -/
theorem claimed_of_mem {id : String} (hmeanwhile : r.meanwhile db = db)
    (hclaimed : id ∈ r.claimed policy db) :
    r.claimed policy db =
      (claimable policy r.now r.batchSize r.locked db.transfers).map Transfer.id := by
  rcases claim_cases r policy db with hrun | ⟨hnone, -⟩
  · rw [hmeanwhile] at hrun
    exact (claimDue_ok.mp hrun).1
  · rw [hnone] at hclaimed
    cases hclaimed

/-- It is the row of that id, and it is due. -/
theorem claimed_row {x : Transfer} (hmeanwhile : r.meanwhile db = db)
    (hids : (db.transfers.map Transfer.id).Nodup) (hx : db.transfer? x.id = some x)
    (hclaimed : x.id ∈ r.claimed policy db) :
    x ∈ claimable policy r.now r.batchSize r.locked db.transfers ∧ policy.due r.now x = true := by
  rw [claimed_of_mem hmeanwhile hclaimed] at hclaimed
  obtain ⟨y, hy, hid⟩ := List.mem_map.mp hclaimed
  obtain ⟨hmem, hdue, -⟩ := claimable_due hy
  have heq := Table.eq_of_key_eq hids hmem (Table.lookup_mem hx) hid
  rw [← heq]
  exact ⟨hy, hdue⟩

/-- One poisoned round: `T` is not passed on, and the two rows stay together. -/
theorem Poisoned.round (hs : Seeded db₀) (hr : Poisoned policy P.id T.id db r) (h : Sound db₀ db)
    (hP : db.transfer? P.id = some P) (hT : db.transfer? T.id = some T)
    (hv : P.status ∈ verifiableStatuses) (hlt : P.id < T.id)
    (hnext : P.nextVerificationAt = T.nextVerificationAt) :
    T.id ∉ (r.runOnce policy db).passed ∧ Sound db₀ (r.runOnce policy db).db ∧
      (r.runOnce policy db).db.transfer? P.id = some (r.leasedRow policy db P) ∧
      (r.runOnce policy db).db.transfer? T.id = some (r.leasedRow policy db T) := by
  obtain ⟨inputs, answer, hmeanwhile, hcalls, hclock, hanswer, hunstorable, htogether⟩ := hr
  obtain ⟨hid, hst, hcreated⟩ := leasedRow_terms policy r db P
  rw [runOnce_eq.1, runOnce_eq.2]
  refine resolve_shielded hs hcalls hlt.ne' ?_ ?_ (leasedDb_sound hs hmeanwhile h)
    (leasedDb_transfer? hmeanwhile hP) (leasedDb_transfer? hmeanwhile hT)
  · intro hclaimed db' hsound hrow
    obtain ⟨-, hdue⟩ := claimed_row hmeanwhile h.transferIds hP hclaimed
    rw [hcalls, ← hid]
    rw [← hid] at hrow hclock hanswer
    refine reconcile_unstorable (hsound.accountIds hs) hrow (hst ▸ hv) ?_ hanswer hunstorable
    intro hsubmitted
    rw [hst] at hsubmitted
    rw [hcreated]
    simp only [ReconciliationPolicy.due, hsubmitted, reduceCtorEq, decide_false, Bool.false_and,
      Bool.false_or, Bool.and_eq_true, decide_eq_true_eq] at hdue
    exact (le_sub_iff_add_le.mp hdue.1.2).trans hclock
  · by_cases hclaimed : P.id ∈ r.claimed policy db
    · obtain ⟨hmem, -⟩ := claimed_row hmeanwhile h.transferIds hP hclaimed
      rw [claimed_of_mem hmeanwhile hclaimed]
      refine shielded_of_sorted (claimable_sorted ..) ?_ hmem hlt hnext
      intro y hy hyid
      exact Table.eq_of_key_eq h.transferIds (claimable_due hy).1 (Table.lookup_mem hT) hyid
    · exact shielded_of_not_mem (mt htogether.mpr hclaimed)

/-- In every run of such rounds `T` is never passed to `reconcile`, however often it is
claimed. -/
theorem starved (hs : Seeded db₀) {rounds : List Round} (h : Sound db₀ db)
    (hP : db.transfer? P.id = some P) (hT : db.transfer? T.id = some T)
    (hv : P.status ∈ verifiableStatuses) (hlt : P.id < T.id)
    (hnext : P.nextVerificationAt = T.nextVerificationAt)
    (hrounds : Runs.AllSteps (roundStep policy) (Poisoned policy P.id T.id) db rounds) :
    Runs.AllSteps (roundStep policy) (fun db r => T.id ∉ (r.runOnce policy db).passed) db
      rounds := by
  induction rounds generalizing db P T with
  | nil => trivial
  | cons r rounds ih =>
      obtain ⟨hr, hrest⟩ := hrounds
      obtain ⟨hnot, hsound, hP', hT'⟩ := hr.round hs h hP hT hv hlt hnext
      refine ⟨hnot, fun db' hstep => ?_⟩
      have hrest := hrest db' hstep
      cases hstep
      obtain ⟨hPid, hPst, -⟩ := leasedRow_terms policy r db P
      obtain ⟨hTid, -, -⟩ := leasedRow_terms policy r db T
      obtain ⟨-, -, -, -, -, -, -, htogether⟩ := hr
      rw [← hPid] at hP' hlt hrest
      rw [← hTid] at hT' hlt hrest ⊢
      refine ih hsound hP' hT' (hPst ▸ hv) hlt ?_ hrest
      -- claimed together they have one lease, and otherwise they are as they were
      by_cases hclaimed : P.id ∈ r.claimed policy db
      · rw [Round.leasedRow, if_pos hclaimed, Round.leasedRow, if_pos (htogether.mp hclaimed)]
      · rw [Round.leasedRow, if_neg hclaimed, Round.leasedRow,
          if_neg (mt htogether.mpr hclaimed)]
        exact hnext

end

/-! ## Two transfers -/

/-- What the partner says about a transfer when it is checked at `now`: it has the credit of
the first, under an id of 129 characters, and has never seen the other. -/
def poisonInput (now : Time) (id : String) : ReconcileInput where
  decidedAt := now
  answer := .ok (if id = sampleTransferId then
      classifyStatusResponse { longConfirmation with statusCode := 200 }
    else creditNotFound)
  appliedAt := now
  wall := now

/-- A round of the worker at `now`, with the default settings. -/
def workerRound (inputs : String → ReconcileInput) (now : Time) : Round where
  meanwhile := fun db => db
  now := now
  batchSize := 50
  locked := []
  shouldStop := fun _ => false
  reconcile := fun id => reconcile sampleConfig.policy (inputs id) id

/-- Both transfers are claimed in each of three rounds, and each time only the first is
passed to `reconcile`; it could reverse the other at once. -/
theorem neighbour_not_reconciled :
    ∃ s, Runs.run (step sampleConfig) freshState abandonedRequests = some s ∧
      Runs.AllSteps (roundStep sampleConfig.policy)
        (fun db r => r.claimed sampleConfig.policy db = [sampleTransferId, otherTransferId] ∧
          (r.runOnce sampleConfig.policy db).passed = [sampleTransferId])
        s.store.db ([70, 170, 270].map fun now => workerRound (poisonInput now) now) := by
  have hany : (Runs.run (step sampleConfig) freshState abandonedRequests).any (fun s =>
      decide (Runs.AllSteps (roundStep sampleConfig.policy)
        (fun db r => r.claimed sampleConfig.policy db = [sampleTransferId, otherTransferId] ∧
          (r.runOnce sampleConfig.policy db).passed = [sampleTransferId])
        s.store.db ([70, 170, 270].map fun now => workerRound (poisonInput now) now))) =
      true := by
    decide +kernel
  obtain ⟨s, hs, hrounds⟩ := (Option.any_eq_true _ _).mp hany
  exact ⟨s, hs, of_decide_eq_true hrounds⟩

/-- When the partner has never seen either credit, both are passed on. -/
theorem every_claim_passed_iff_notFound :
    ∃ s, Runs.run (step sampleConfig) freshState abandonedRequests = some s ∧
      (workerRound (fun _ => ⟨70, .ok creditNotFound, 70, 70⟩) 70).claimed sampleConfig.policy
        s.store.db = [sampleTransferId, otherTransferId] ∧
      Runs.AllSteps (roundStep sampleConfig.policy)
        (fun db r => r.OnlyLastRaises sampleConfig.policy db) s.store.db
        [workerRound (fun _ => ⟨70, .ok creditNotFound, 70, 70⟩) 70] := by
  have hany : (Runs.run (step sampleConfig) freshState abandonedRequests).any (fun s =>
      decide ((workerRound (fun _ => ⟨70, .ok creditNotFound, 70, 70⟩) 70).claimed
          sampleConfig.policy s.store.db = [sampleTransferId, otherTransferId] ∧
        Runs.AllSteps (roundStep sampleConfig.policy) (fun db r =>
          (r.runOnce sampleConfig.policy db).passed = r.claimed sampleConfig.policy db)
        s.store.db [workerRound (fun _ => ⟨70, .ok creditNotFound, 70, 70⟩) 70])) = true := by
    decide +kernel
  obtain ⟨s, hs, hdec⟩ := (Option.any_eq_true _ _).mp hany
  obtain ⟨hclaimed, hrounds⟩ := of_decide_eq_true hdec
  refine ⟨s, hs, hclaimed, (every_claim_passed_iff sampleConfig.policy s.store.db ?_).mp
    hrounds⟩
  intro r hr id
  rw [List.mem_singleton.mp hr]
  rfl

end LoyaltyTransfer
