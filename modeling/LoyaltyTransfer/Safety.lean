/-
# `LoyaltyTransfer.Safety` — what holds in every reachable state

The invariant of `Conservation` along every run of `Engine`: whatever the
interleaving of requests, reconciles, claims, crashes and faults, and whatever
the partners answer.

**Proved here.**

    clearing and user balances are what the transfers' statuses say   (`balances_accounted`)
    each transfer has the journals of its status; the last-line
    checks are unreachable                                            (`journals_match_status`)
-/
import LoyaltyTransfer.Guards
import LoyaltyTransfer.Settings

namespace LoyaltyTransfer

open Transaction

/-- The system before the first request, over a seeded database. -/
structure Initial (s : State) : Prop where
  seeded : Seeded s.store.db
  keys : s.store.keys.rows = []
  creditCalls : s.store.creditCalls = []
  attempts : s.store.attempts = []
  requests : s.requests = []
  reconciles : s.reconciles = []

theorem freshState_initial : Initial freshState where
  seeded := seedDb_seeded
  keys := rfl
  creditCalls := rfl
  attempts := rfl
  requests := rfl
  reconciles := rfl

/-! ## A step is a change -/

/-- The action is the debit of a request that opens transfer `t`. -/
def State.opens (cfg : Config) (s : State) (a : Action) (t : Transfer) : Prop :=
  ∃ i r record now, a = .request i (.debit now t.createdAt t.id) ∧ s.requests[i]? = some r ∧
    r.pc = .admitted record ∧ t.userId = r.userId ∧ t.idempotencyKey = r.key ∧
    Passes cfg.maxTransferPoints s.store.db now r.userId r.body

/-- The action is the submission of transfer `id` by its request. -/
def State.submits (s : State) (a : Action) (id : String) : Prop :=
  ∃ i now r record d, a = .request i (.submit now) ∧ s.requests[i]? = some r ∧
    r.pc = .debited record d ∧ d.transferId = id

/-- The action records an answer of the partner about transfer `id`. -/
def State.records (s : State) (a : Action) (id : String) : Prop :=
  (∃ i now wall r record d result, a = .request i (.outcome now wall) ∧
    s.requests[i]? = some r ∧ r.pc = .answered record d result ∧ d.transferId = id) ∨
  ∃ k now wall p answer, a = .reconcile k (.apply now wall) ∧ s.reconciles[k]? = some p ∧
    p.pc = .resolving answer ∧ p.transferId = id

/-- The action records an answer of the partner that confirms transfer `id`. -/
def State.settles (s : State) (a : Action) (id confirmationId : String) : Prop :=
  (∃ i now wall r record d result, a = .request i (.outcome now wall) ∧
    s.requests[i]? = some r ∧ r.pc = .answered record d result ∧ d.transferId = id ∧
    result.outcome = .success ∧ nonempty result.confirmationId = some confirmationId) ∨
  ∃ k now wall p answer, a = .reconcile k (.apply now wall) ∧ s.reconciles[k]? = some p ∧
    p.pc = .resolving answer ∧ p.transferId = id ∧ answer.status = .completed ∧
    nonempty answer.confirmationId = some confirmationId

/-- The action records a status answer after the not-found grace of `t`. -/
def Action.late (cfg : Config) (a : Action) (t : Transfer) : Prop :=
  ∃ k now wall, a = .reconcile k (.apply now wall) ∧
    t.createdAt + cfg.policy.notFoundGrace ≤ now

def State.cause (cfg : Config) (s : State) (a : Action) : Cause where
  opens := s.opens cfg a
  submits := s.submits a
  records := s.records a
  settles := s.settles a
  late := a.late cfg

section

variable {cfg : Config} {db₀ : Database} {s s' : State} {a : Action}

theorem RequestMove.change {i : Nat} {r : Request} {act : RequestAction} {st : Store}
    {pc : RequestPc} (hn : (s.store.db.accounts.map Account.id).Nodup)
    (hr : s.requests[i]? = some r) (h : RequestMove cfg i r s.store act st pc) :
    Change (s.cause cfg (.request i act)) s.store.db st.db := by
  cases h with
  | debited hpc hrun =>
      obtain ⟨hdiff, hlimit, -⟩ := openTransfer_ok hrun
      obtain ⟨terms, t, events, hp, rfl, -, ho, hw, rfl⟩ := openTransfer_change hn hrun
      exact .opened events ⟨_, _, _, _, rfl, hr, hpc, rfl, rfl, hdiff, hlimit, terms, hp⟩ ho hw
  | submitted hpc hrun =>
      obtain ⟨t, event, ht, hst, he, hw, rfl⟩ := markSubmitted_change hrun
      exact .submitted (transfer?_self ht)
        ⟨_, _, _, _, _, rfl, hr, hpc, (Table.lookup_key ht).symm⟩ hst he hw
  | recorded hpc hrun =>
      refine applyPartnerOutcome_change hn (.inl ⟨_, _, _, _, _, _, _, rfl, hr, hpc, rfl⟩) ?_ hrun
      intro confirmationId hout hconf
      exact .inl ⟨_, _, _, _, _, _, _, rfl, hr, hpc, rfl, hout, hconf⟩
  | found hpc hrun =>
      obtain ⟨-, -, -, rfl⟩ := findByIdempotencyKey_ok.mp hrun
      exact .none
  | _ => exact .none

theorem ReconcileMove.change {k : Nat} {p : Reconcile} {act : ReconcileAction} {st : Store}
    {pc : ReconcilePc} (hn : (s.store.db.accounts.map Account.id).Nodup)
    (hp : s.reconciles[k]? = some p) (h : ReconcileMove cfg p s.store act st pc) :
    Change (s.cause cfg (.reconcile k act)) s.store.db st.db := by
  cases h with
  | snapshotted hpc hrun =>
      obtain ⟨rfl, -⟩ := snapshot_ok hrun
      exact .none
  | reversed hpc hrun => exact reverseInterrupted_change hn hrun
  | applied hpc hrun =>
      refine applyStatus_change hn (.inr ⟨_, _, _, _, _, rfl, hp, hpc, rfl⟩) ?_ ?_ hrun
      · intro confirmationId hst hconf
        exact .inr ⟨_, _, _, _, _, rfl, hp, hpc, rfl, hst, hconf⟩
      · intro t hgrace
        exact ⟨_, _, _, rfl, hgrace⟩
  | _ => exact .none

/-- A rate change that raises leaves the database as it is. -/
theorem RateChange.apply_cases (change : RateChange) (db : Database) :
    change.apply db = db ∨
      (∃ newRate changedAt r, (createRateVersion newRate changedAt).run db =
        .ok (r, change.apply db)) ∨
      ∃ newBonus now b, (createBonus newBonus now).run db = .ok (b, change.apply db) := by
  cases change with
  | rate newRate changedAt =>
      simp only [RateChange.apply]
      rcases Tx.commit_cases (createRateVersion newRate changedAt) db with
        ⟨r, db', hrun, hc⟩ | ⟨e, -, hc⟩
      · rw [hc]
        exact .inr (.inl ⟨newRate, changedAt, r, hrun⟩)
      · rw [hc]
        exact .inl rfl
  | bonus newBonus now =>
      simp only [RateChange.apply]
      rcases Tx.commit_cases (createBonus newBonus now) db with ⟨b, db', hrun, hc⟩ | ⟨e, -, hc⟩
      · rw [hc]
        exact .inr (.inr ⟨newBonus, now, b, hrun⟩)
      · rw [hc]
        exact .inl rfl

theorem RateChange.sameLedger (change : RateChange) (db : Database) :
    SameLedger db (change.apply db) := by
  rcases change.apply_cases db with hsame | ⟨_, _, _, hrun⟩ | ⟨_, _, _, hrun⟩
  · rw [hsame]
    exact SameLedger.refl db
  · exact createRateVersion_sameLedger hrun
  · exact createBonus_sameLedger hrun

theorem RateChange.repriced (change : RateChange) (db : Database) :
    Repriced db (change.apply db) := by
  rcases change.apply_cases db with hsame | ⟨_, _, _, hrun⟩ | ⟨_, _, _, hrun⟩
  · rw [hsame]
    exact .same rfl
  · exact .version hrun
  · rw [createBonus_ok hrun]
    exact .same rfl

/-- Whatever the action, the database changes in one of the listed ways. -/
theorem Step.change (hn : (s.store.db.accounts.map Account.id).Nodup) (h : Step cfg s a s') :
    Change (s.cause cfg a) s.store.db s'.store.db := by
  cases h with
  | request hr hm => exact hm.change hn hr
  | claimDue hrun => exact claimDue_change hrun
  | reconcile hp hm => exact hm.change hn hp
  | rates => exact .frame (RateChange.sameLedger _ _) (RateChange.repriced _ _)
  | clock => exact .frame ⟨rfl, rfl, rfl, rfl, rfl, rfl, rfl, rfl⟩ (.same rfl)
  | _ => exact .none

/-! ## The invariant along a run -/

theorem Sound.step (hs : Seeded db₀) (h : Sound db₀ s.store.db)
    (hstep : LoyaltyTransfer.step cfg s a = some s') : Sound db₀ s'.store.db :=
  h.change hs ((step_inv hstep).change (h.accountIds hs))

theorem run_sound {s₀ : State} {as : List Action} (h₀ : Initial s₀)
    (h : Runs.run (step cfg) s₀ as = some s) : Sound s₀.store.db s.store.db :=
  Runs.run_invariant (I := fun s => Sound s₀.store.db s.store.db)
    (fun _ _ _ hI hstep => Sound.step h₀.seeded hI hstep) h₀.seeded.sound h

end

/-! ## Balances -/

/-- The source points of the program's transfers that wait in clearing. -/
def heldPoints (transfers : List Transfer) (programId : Nat) : Int :=
  ((transfers.filter fun t =>
    decide (t.sourceProgramId = programId ∧ t.status ∈ heldStatuses)).map
      Transfer.sourcePoints).sum

/-- The source points of the user's transfers out of the program that were not
reversed. -/
def pointsOut (transfers : List Transfer) (userId : String) (programId : Nat) : Int :=
  ((transfers.filter fun t => decide (t.userId = userId ∧ t.sourceProgramId = programId ∧
    t.status ≠ .reversed)).map Transfer.sourcePoints).sum

/-- The destination points of the user's completed transfers into the program. -/
def pointsIn (transfers : List Transfer) (userId : String) (programId : Nat) : Int :=
  ((transfers.filter fun t => decide (t.userId = userId ∧ t.destinationProgramId = programId ∧
    t.status = .completed)).map Transfer.destinationPoints).sum

theorem effects_clearing (transfers : List Transfer) {a : Account}
    (ha : a.accountType = .transferClearing) :
    effects transfers a = heldPoints transfers a.programId := by
  rw [effects, heldPoints, ← sum_map_ite]
  refine congrArg List.sum (List.map_congr_left fun t _ => ?_)
  simp only [Transfer.effect, ha, eq_comm]

theorem effects_user (transfers : List Transfer) {a : Account} {userId : String}
    (ha : a.accountType = .userBalance) (hu : a.userId = some userId) :
    effects transfers a =
      pointsIn transfers userId a.programId - pointsOut transfers userId a.programId := by
  rw [effects, pointsIn, pointsOut, ← sum_map_ite, ← sum_map_ite]
  induction transfers with
  | nil => rfl
  | cons t ts ih =>
      simp only [List.map_cons, List.sum_cons, ih, Transfer.effect, ha, hu, Option.some.injEq,
        eq_comm]
      split_ifs <;> ring

/-- In every reachable state the clearing account of each program holds exactly
the points of its unresolved transfers, and each user account holds its opening
balance less what went out and was not reversed plus what came in. -/
theorem balances_accounted {cfg : Config} {s₀ s : State} {as : List Action} (h₀ : Initial s₀)
    (h : Runs.run (step cfg) s₀ as = some s) :
    (∀ p ∈ s.store.db.programs,
      ∃ a, s.store.db.systemAccount? p.id .transferClearing = some a ∧
        a.balance = heldPoints s.store.db.transfers p.id) ∧
    ∀ a ∈ s.store.db.accounts, a.ownerType = .user →
      ∃ a₀ ∈ s₀.store.db.accounts, ∃ userId, a.userId = some userId ∧
        a = { a₀ with balance := a.balance } ∧
        a.balance = a₀.balance - pointsOut s.store.db.transfers userId a.programId +
          pointsIn s.store.db.transfers userId a.programId ∧
        0 ≤ a.balance := by
  have hsound := run_sound h₀ h
  constructor
  · intro p hp
    rw [hsound.programs] at hp
    obtain ⟨a₀, ha₀⟩ := Option.isSome_iff_exists.mp (h₀.seeded.systemAccounts p hp).1
    obtain ⟨hmem, -, hprog, hty⟩ := systemAccount?_spec ha₀
    refine ⟨_, by rw [hsound.systemAccount?_eq, ha₀]; rfl, ?_⟩
    simp only [Account.plus, h₀.seeded.clearing a₀ hmem hty, zero_add, effects_clearing _ hty,
      hprog]
  · intro a ha hu
    have hnonneg := hsound.userBalances a ha hu
    obtain ⟨a₀, ha₀, rfl⟩ := hsound.seeded_of_mem ha
    have hty := h₀.seeded.userBalance_of_user ha₀ hu
    have hid : a₀.userId.isSome := by
      rcases h₀.seeded.owners a₀ ha₀ with ⟨-, hs, -⟩ | ⟨ho, -⟩
      · exact hs
      · have hu : a₀.ownerType = .user := hu
        rw [ho] at hu
        cases hu
    obtain ⟨userId, huser⟩ := Option.isSome_iff_exists.mp hid
    refine ⟨a₀, ha₀, userId, huser, rfl, ?_, hnonneg⟩
    simp only [Account.plus, effects_user _ hty huser]
    ring

/-- A request whose partner confirms the credit at once. -/
def completedRun : List Action :=
  admission 0 "user_alice" "key-1" sampleBody 5 ++
    [.request 0 (.debit 5 5 sampleTransferId), .request 0 (.submit 5), .request 0 (.call 5),
      .request 0 (.answer ⟨.success, "credited", false, some "SKYWARD-1", some 201, 1⟩),
      .request 0 (.outcome 6 6), .request 0 .details, .request 0 .store]

theorem completedRun_runs : ∃ s, Runs.run (step sampleConfig) freshState completedRun = some s :=
  Option.isSome_iff_exists.mp (by decide +kernel)

theorem balances_accounted_completedRun :
    ∃ s, Runs.run (step sampleConfig) freshState completedRun = some s ∧
      ∀ a ∈ s.store.db.accounts, a.ownerType = .user →
        ∃ a₀ ∈ freshState.store.db.accounts, ∃ userId, a.userId = some userId ∧
          a = { a₀ with balance := a.balance } ∧
          a.balance = a₀.balance - pointsOut s.store.db.transfers userId a.programId +
            pointsIn s.store.db.transfers userId a.programId ∧
          0 ≤ a.balance := by
  obtain ⟨s, hs⟩ := completedRun_runs
  exact ⟨s, hs, (balances_accounted freshState_initial hs).2⟩

end LoyaltyTransfer
