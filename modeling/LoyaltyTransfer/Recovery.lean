/-
# `LoyaltyTransfer.Recovery` — every transfer can be closed

`Reach` says that an unresolved transfer stays due; here, that a reconcile of it does
close it.  The reconciler needs nothing but the database, a clock past the waiting
times and an answer that decides: the guards of the journals, the accounts they touch,
the balances and the columns are in order in every reachable state.

**Proved here.**  From every reachable state one reconcile after another, each with a
deciding answer of its partner, closes every transfer: one that never reached the
partner and one that the partner does not know are reversed, one that the partner
credited is completed under its confirmation; what was closed before stays, and
clearing then holds the points of MANUAL_REVIEW and nothing else  (`every_transfer_closes`).
-/
import LoyaltyTransfer.Recording
import LoyaltyTransfer.Workers

namespace LoyaltyTransfer

open Transaction

/-! ## The reconciles -/

/-- Reconcile number `k`, of `t`: its clocks read `now` and the partner answers `r`. -/
def reconcileRun (k : Nat) (t : Transfer) (now : Time) (r : HttpResponse) : List Action :=
  if t.status = .sourceDebited then
    [.startReconcile t.id, .reconcile k .snapshot, .reconcile k (.decide now),
      .reconcile k (.reverse now)]
  else
    [.startReconcile t.id, .reconcile k .snapshot, .reconcile k (.decide now),
      .reconcile k (.status (classifyStatusResponse r)), .reconcile k (.apply now now)]

/-- The reconciles of `ts`, one after another, the first of them number `k`. -/
def reconcileAll (now : Time) (responses : String → HttpResponse) :
    Nat → List Transfer → List Action
  | _, [] => []
  | k, t :: ts =>
      reconcileRun k t now (responses t.id) ++ reconcileAll now responses (k + 1) ts

/-- How a reconcile with the answer `r` closes a transfer. -/
inductive ClosedBy (t : Transfer) (r : HttpResponse) (t' : Transfer) : Prop
  | interrupted (hs : t.status = .sourceDebited) (hs' : t'.status = .reversed)
      (hcode : t'.failureCode = some .transferInterrupted)
  | credited {confirmationId : String} (hs : t.status ∈ verifiableStatuses)
      (hr : r.statusCode = 200 ∧ r.confirmationId = some confirmationId)
      (hs' : t'.status = .completed) (hconf : t'.partnerConfirmationId = some confirmationId)
  | notReceived (hs : t.status ∈ verifiableStatuses) (hr : r.statusCode = 404)
      (hs' : t'.status = .reversed) (hcode : t'.failureCode = some .partnerNotReceived)

theorem ClosedBy.closed {t t' : Transfer} {r : HttpResponse} (h : ClosedBy t r t') :
    t'.status ∈ finalStatuses := by
  cases h with
  | interrupted _ hs' _ => simp [hs', finalStatuses]
  | credited _ _ hs' _ => simp [hs', finalStatuses]
  | notReceived _ _ hs' _ => simp [hs', finalStatuses]

/-! ## The two transactions that close -/

section

variable {db₀ db db' : Database} {t : Transfer}

/-- Every other transfer is as it was, and no balance moved by more than the points. -/
structure ClosesOnly (db : Database) (t t' : Transfer) (db' : Database) : Prop where
  row : db'.transfer? t.id = some t'
  terms : SameTerms t t'
  ids : db'.transfers.map Transfer.id = db.transfers.map Transfer.id
  others : ∀ id, id ≠ t.id → db'.transfer? id = db.transfer? id
  balances : ∀ a' ∈ db'.accounts, ∃ a ∈ db.accounts,
    |a'.balance| ≤ |a.balance| + (t.sourcePoints + t.destinationPoints)

theorem closesOnly_posted {journalType : JournalType} {postings : List Posting} {t' : Transfer}
    (events : List TransferEvent) {moment : Option Time} (ht : db.transfer? t.id = some t)
    (hterms : SameTerms t t')
    (hmoved : ∀ id, |netChange postings id| ≤ t.sourcePoints + t.destinationPoints) :
    ClosesOnly db t t' (saved (posted db journalType postings (some t.id)) t' events moment) where
  row := transfer?_saved_self rfl ht hterms.id
  terms := hterms
  ids := Table.map_key_replace
  others := fun id hid => Table.lookup_replace_other (by rw [hterms.id]; exact hid)
  balances := by
    intro a' ha'
    obtain ⟨a, ha, rfl⟩ := List.mem_map.mp ha'
    exact ⟨a, ha, (abs_add_le _ _).trans (add_le_add_right (hmoved a.id) _)⟩

theorem reverseTransfer_closesOnly (hn : (db.accounts.map Account.id).Nodup)
    (ht : db.transfer? t.id = some t) (hvalid : t.Valid) {wall : Time} {code : TransferFailureCode}
    {message reason : String} {metadata : List (String × Json.Value)} {u : Unit}
    (h : (reverseTransfer wall t code message reason metadata).run db = .ok (u, db')) :
    ClosesOnly db t (t.reversedAs code message wall) db' := by
  obtain ⟨_, _, -, -, -, -, -, -, rfl⟩ := (reverseTransfer_ok hn).mp h
  exact closesOnly_posted _ ht (sameTerms_reversedAs ..)
    (abs_netChange_reverse hvalid.sourcePoints.le hvalid.destinationPoints.le)

theorem settleTransfer_closesOnly (hn : (db.accounts.map Account.id).Nodup)
    (ht : db.transfer? t.id = some t) (hvalid : t.Valid) {wall : Time}
    {confirmationId reason : String} {metadata : List (String × Json.Value)} {u : Unit}
    (h : (settleTransfer wall t confirmationId reason metadata).run db = .ok (u, db')) :
    ClosesOnly db t (t.settledAs confirmationId wall) db' := by
  obtain ⟨_, -, -, -, -, -, rfl⟩ := (settleTransfer_ok hn).mp h
  exact closesOnly_posted _ ht (sameTerms_settledAs ..)
    (abs_netChange_settle hvalid.sourcePoints.le hvalid.destinationPoints.le)

/-- `_reverse_interrupted` reverses a transfer that never reached the partner. -/
theorem Sound.closes_interrupted (h : Sound db₀ db) (hs : Seeded db₀)
    (ht : db.transfer? t.id = some t) (hvalid : t.Valid) (hroom : t.hasRoom db)
    (hst : t.status = .sourceDebited) (wall : Time) (r : HttpResponse) :
    ∃ db' t', (reverseInterrupted wall t.id).run db = .ok (.reversed, db') ∧
      ClosedBy t r t' ∧ ClosesOnly db t t' db' := by
  have hheld : t.status ∈ heldStatuses := by simp [hst, heldStatuses]
  have hallowed : .reversed ∈ allowedTransitions t.status := by simp [hst, allowedTransitions]
  have hmeta : fitsJsonbFields [("source", .str "reconciler")] = true := by decide
  have hmessage : fitsVarchar 500
      "Processing was interrupted before the partner was contacted. Points were returned." =
        true := by decide
  obtain ⟨db', hrun, -⟩ := h.reverses hs ht hvalid hheld hallowed wall .transferInterrupted
    "reconciled_interrupted_before_partner" hmeta hmessage (hroom.reversesWithin hvalid)
  refine ⟨db', _, ?_, .interrupted hst rfl rfl,
    reverseTransfer_closesOnly (h.accountIds hs) ht hvalid hrun⟩
  rw [reverseInterrupted, lockTransfer_bind ht, if_neg (not_not.mpr hst)]
  exact bind_pure_ok.mpr ⟨⟨(), hrun⟩, rfl⟩

/-- `_apply` closes an unresolved transfer with an answer that decides, once the
not-found grace is over. -/
theorem Sound.closes_verified (h : Sound db₀ db) (hs : Seeded db₀)
    (ht : db.transfer? t.id = some t) (hvalid : t.Valid) (hroom : t.hasRoom db)
    (hv : t.status ∈ verifiableStatuses) (policy : ReconciliationPolicy) {now : Time}
    (hdate : fitsDatetime (t.createdAt + policy.notFoundGrace) = true)
    (hgrace : t.createdAt + policy.notFoundGrace ≤ now) (wall : Time) {r : HttpResponse}
    (hfits : r.statusFits) (hdecides : ¬ r.inconclusive) :
    ∃ result db' t', (applyStatus policy now wall t.id (classifyStatusResponse r)).run db =
      .ok (result, db') ∧ ClosedBy t r t' ∧ ClosesOnly db t t' db' := by
  have hmeta := statusMetadata_fits t (classifyStatusResponse_reason r)
  have happly : (applyStatus policy now wall t.id (classifyStatusResponse r)).run db =
      (recordStatus policy now wall t (classifyStatusResponse r)).run db := by
    rw [applyStatus, lockTransfer_bind ht, if_neg (not_not.mpr hv)]
  by_cases hmissing : r.statusCode = 404
  · have hclass : (classifyStatusResponse r).status = .notFound := by
      have hcode : r.statusCode ≠ 200 := by omega
      simp only [classifyStatusResponse, if_neg hcode, if_pos hmissing]
    have hmessage : fitsVarchar 500
        "The partner never received the credit. Points were returned." = true := by decide
    obtain ⟨db', hrun, -⟩ := h.reverses hs ht hvalid (held_of_verifiable hv)
      (verifiable_reversible hv) wall .partnerNotReceived "reconciled_partner_has_no_credit" hmeta
      hmessage (hroom.reversesWithin hvalid)
    refine ⟨.reversed, db', _, ?_, .notReceived hv hmissing rfl rfl,
      reverseTransfer_closesOnly (h.accountIds hs) ht hvalid hrun⟩
    rw [happly]
    simp only [recordStatus, hclass]
    refine Tx.bind_ok.mpr ⟨_, db, Tx.ofExcept_ok.mpr ⟨_, dateAdd_ok.mpr ⟨hdate, rfl⟩, rfl⟩, ?_⟩
    rw [if_pos hgrace]
    exact bind_pure_ok.mpr ⟨⟨(), hrun⟩, rfl⟩
  · have hfound : r.statusCode = 200 ∧ r.confirmationId.isSome = true := by
      by_contra hno
      exact hdecides ⟨hmissing, hno⟩
    obtain ⟨hcode, hsome⟩ := hfound
    obtain ⟨c, hc⟩ := Option.isSome_iff_exists.mp hsome
    obtain ⟨db', hrun, -⟩ := h.settles hs ht hvalid hv wall "reconciled_partner_has_credit" hmeta
      (hfits hcode c hc) (hroom.settlesWithin hvalid)
    refine ⟨.completed, db', _, ?_, .credited hv ⟨hcode, hc⟩ rfl rfl,
      settleTransfer_closesOnly (h.accountIds hs) ht hvalid hrun⟩
    rw [happly]
    have hclass : classifyStatusResponse r =
        ⟨.completed, "credit_found", false, some c, some r.statusCode, 1⟩ := by
      simp only [classifyStatusResponse, if_pos hcode, hc]
    rw [hclass] at hrun ⊢
    simp only [recordStatus, confirmationId_nonempty hc]
    exact bind_pure_ok.mpr ⟨⟨(), hrun⟩, rfl⟩

/-- The snapshot of a transfer can be taken. -/
theorem Sound.snapshots (h : Sound db₀ db) (hs : Seeded db₀) (ht : db.transfer? t.id = some t) :
    ∃ partnerCode reference, (snapshot t.id).run db =
      .ok (⟨t.status, t.createdAt, partnerCode, reference⟩, db) := by
  have hrow := h.rows t (Table.lookup_mem ht)
  have hprogram : ∀ programId, (∃ p ∈ db₀.programs, p.id = programId) →
      ∃ p, db.program? programId = some p := by
    rintro programId ⟨p, hp, rfl⟩
    refine ⟨p, ?_⟩
    rw [Database.program?, h.programs]
    exact Table.lookup_of_mem hs.programIds hp
  obtain ⟨p, hp⟩ := hprogram _ hrow.sourceProgram
  obtain ⟨q, hq⟩ := hprogram _ hrow.destinationProgram
  refine ⟨q.partnerCode, (nonempty t.partnerReference).getD t.id,
    Tx.bind_ok.mpr ⟨db, db, Tx.get_ok.mpr rfl, ?_⟩⟩
  refine Tx.bind_ok.mpr ⟨t, db, Tx.ofOption_ok.mpr ⟨t, ht, rfl⟩, ?_⟩
  refine Tx.bind_ok.mpr ⟨p, db, Tx.ofOption_ok.mpr ⟨p, hp, rfl⟩, ?_⟩
  exact Tx.bind_ok.mpr ⟨q, db, Tx.ofOption_ok.mpr ⟨q, hq, rfl⟩, rfl⟩

end

/-! ## One reconcile -/

section

variable {cfg : Config} {s₀ s : State} {t : Transfer} {now : Time} {r : HttpResponse}

/-- The state with one reconcile more, and a store. -/
def State.reconciling (s : State) (st : Store) (p : Reconcile) : State :=
  { s with store := st, reconciles := s.reconciles ++ [p] }

/-- A step of the last reconcile. -/
theorem step_reconciling {st st' : Store} {p : Reconcile} {a : ReconcileAction} {pc : ReconcilePc}
    (h : reconcileStep cfg p st a = some (st', pc)) :
    step cfg (s.reconciling st p) (.reconcile s.reconciles.length a) =
      some (s.reconciling st' { p with pc }) := by
  have hlast : (s.reconciles ++ [p])[s.reconciles.length]? = some p := by simp
  simp only [step, State.reconciling, hlast, h, Option.map_some, List.set_append_right _ _ le_rfl,
    Nat.sub_self, List.set_cons_zero]

theorem afterReconcileTx_ok {α : Type} {st : Store} {tx : DbTx α} {next : α → ReconcilePc} {a : α}
    {db : Database} (h : tx.run st.db = .ok (a, db)) :
    afterReconcileTx st tx next = ({ st with db }, next a) := by
  simp only [afterReconcileTx, Tx.commit_ok h]

theorem verifiable_of_open (hopen : t.status ∈ openStatuses) (hst : t.status ≠ .sourceDebited) :
    t.status ∈ verifiableStatuses := by
  simp only [openStatuses, stuckStatuses, verifiableStatuses, List.mem_append, List.mem_cons,
    List.not_mem_nil, or_false] at hopen ⊢
  rcases hopen with (hopen | hopen) | hopen
  · exact absurd hopen hst
  · exact .inl hopen
  · exact .inr hopen

/-- Past the waiting times a reconcile of a transfer goes on to close it. -/
theorem decidePc_open (hopen : t.status ∈ openStatuses)
    (hclock : fitsDatetime (now + -cfg.policy.stuckAfter) = true)
    (hstuck : t.createdAt + cfg.policy.stuckAfter ≤ now) (partnerCode reference : String) :
    decidePc cfg now ⟨t.status, t.createdAt, partnerCode, reference⟩ =
      if t.status = .sourceDebited then .reversing
      else .asking ⟨t.status, t.createdAt, partnerCode, reference⟩ := by
  by_cases hst : t.status = .sourceDebited
  · have hdec : reconcileDecision cfg.policy now ⟨t.status, t.createdAt, partnerCode, reference⟩ =
        .ok .reverseInterrupted := reconcileDecision_ok.mpr (.interrupted hst hclock hstuck)
    simp only [decidePc, hdec, if_pos hst]
  · have hdec : reconcileDecision cfg.policy now ⟨t.status, t.createdAt, partnerCode, reference⟩ =
        .ok .askPartner := reconcileDecision_ok.mpr
          (.ask (verifiable_of_open hopen hst) (fun _ => hclock) fun _ => hstuck)
    simp only [decidePc, hdec, if_neg hst]

/-- A transfer that is to be reconciled at `now`, the instants being `datetime`s. -/
structure Waiting (cfg : Config) (now : Time) (db : Database) (t : Transfer) : Prop where
  row : db.transfer? t.id = some t
  unresolved : t.status ∈ openStatuses
  clock : fitsDatetime (now + -cfg.policy.stuckAfter) = true
  stuck : t.createdAt + cfg.policy.stuckAfter ≤ now
  date : fitsDatetime (t.createdAt + cfg.policy.notFoundGrace) = true
  grace : t.createdAt + cfg.policy.notFoundGrace ≤ now

/-- One reconcile from its start to its end closes the transfer, and no other. -/
theorem reconcileRun_closes {db₀ : Database} (hs : Seeded db₀) (h : Sound db₀ s.store.db)
    (haudited : Audited s.store.db) (hw : Waiting cfg now s.store.db t)
    (hroom : t.hasRoom s.store.db) (hfits : r.statusFits) (hdecides : ¬ r.inconclusive) :
    ∃ s' t', Runs.run (step cfg) s (reconcileRun s.reconciles.length t now r) = some s' ∧
      s'.reconciles.length = s.reconciles.length + 1 ∧ ClosedBy t r t' ∧
      ClosesOnly s.store.db t t' s'.store.db := by
  have hvalid := haudited.valid t (Table.lookup_mem hw.row)
  obtain ⟨partnerCode, reference, hsnapshot⟩ := h.snapshots hs hw.row
  -- the snapshot and the decision
  have hstart : step cfg s (.startReconcile t.id) =
      some (s.reconciling s.store ⟨t.id, .started⟩) := rfl
  have htake : step cfg (s.reconciling s.store ⟨t.id, .started⟩)
      (.reconcile s.reconciles.length .snapshot) = some (s.reconciling s.store
        ⟨t.id, .snapshotted ⟨t.status, t.createdAt, partnerCode, reference⟩⟩) := by
    refine step_reconciling ?_
    show some (afterReconcileTx _ _ _) = _
    rw [afterReconcileTx_ok hsnapshot]
  have hdecide : step cfg (s.reconciling s.store
      ⟨t.id, .snapshotted ⟨t.status, t.createdAt, partnerCode, reference⟩⟩)
      (.reconcile s.reconciles.length (.decide now)) = some (s.reconciling s.store ⟨t.id,
        if t.status = .sourceDebited then .reversing
        else .asking ⟨t.status, t.createdAt, partnerCode, reference⟩⟩) := by
    refine step_reconciling ?_
    show some (s.store, decidePc cfg now _) = _
    rw [decidePc_open hw.unresolved hw.clock hw.stuck]
  by_cases hst : t.status = .sourceDebited
  · obtain ⟨db', t', hrun, hclosed, hcloses⟩ := h.closes_interrupted hs hw.row hvalid hroom hst
      now r
    rw [if_pos hst] at hdecide
    have hreverse : step cfg (s.reconciling s.store ⟨t.id, .reversing⟩)
        (.reconcile s.reconciles.length (.reverse now)) = some (s.reconciling
          { s.store with db := db' } ⟨t.id, .finished .reversed⟩) := by
      refine step_reconciling ?_
      show some (afterReconcileTx _ _ _) = _
      rw [afterReconcileTx_ok hrun]
    refine ⟨s.reconciling { s.store with db := db' } ⟨t.id, .finished .reversed⟩, t', ?_, ?_,
      hclosed, hcloses⟩
    · rw [reconcileRun, if_pos hst]
      simp only [Runs.run, hstart, htake, hdecide, hreverse, Option.bind_some]
    · simp [State.reconciling]
  · obtain ⟨result, db', t', hrun, hclosed, hcloses⟩ := h.closes_verified hs hw.row hvalid
      hroom (verifiable_of_open hw.unresolved hst) cfg.policy hw.date hw.grace now hfits hdecides
    rw [if_neg hst] at hdecide
    have hask : step cfg (s.reconciling s.store
        ⟨t.id, .asking ⟨t.status, t.createdAt, partnerCode, reference⟩⟩)
        (.reconcile s.reconciles.length (.status (classifyStatusResponse r))) =
          some (s.reconciling s.store ⟨t.id, .resolving (classifyStatusResponse r)⟩) :=
      step_reconciling rfl
    have happly : step cfg (s.reconciling s.store ⟨t.id, .resolving (classifyStatusResponse r)⟩)
        (.reconcile s.reconciles.length (.apply now now)) = some (s.reconciling
          { s.store with db := db' } ⟨t.id, .finished result⟩) := by
      refine step_reconciling ?_
      show some (afterReconcileTx _ _ _) = _
      rw [afterReconcileTx_ok hrun]
    refine ⟨s.reconciling { s.store with db := db' } ⟨t.id, .finished result⟩, t', ?_, ?_,
      hclosed, hcloses⟩
    · rw [reconcileRun, if_neg hst]
      simp only [Runs.run, hstart, htake, hdecide, hask, happly, Option.bind_some]
    · simp [State.reconciling]

/-! ## All of them -/

/-- The points that closing `ts` can move. -/
def movable (ts : List Transfer) : Int :=
  (ts.map fun t => t.sourcePoints + t.destinationPoints).sum

/-- Whichever of `ts` are settled and whichever reversed, every balance stays a `BIGINT`. -/
def RoomFor (db : Database) (ts : List Transfer) : Prop :=
  ∀ a ∈ db.accounts, |a.balance| + movable ts ≤ maxBigint

theorem movable_nonneg {ts : List Transfer} (h : ∀ t ∈ ts, t.Valid) : 0 ≤ movable ts := by
  refine List.sum_nonneg ?_
  intro n hn
  obtain ⟨t, ht, rfl⟩ := List.mem_map.mp hn
  exact add_nonneg (h t ht).sourcePoints.le (h t ht).destinationPoints.le

theorem RoomFor.hasRoom {db : Database} {ts : List Transfer} (h : RoomFor db (t :: ts))
    (hvalid : ∀ u ∈ ts, u.Valid) : t.hasRoom db := by
  intro a ha
  have hle := h a ha
  have hrest := movable_nonneg hvalid
  rw [movable, List.map_cons, List.sum_cons] at hle
  rw [movable] at hrest
  omega

/-- Once one of them is closed there is room for the rest. -/
theorem RoomFor.closed {db db' : Database} {ts : List Transfer} {t' : Transfer}
    (h : RoomFor db (t :: ts)) (hc : ClosesOnly db t t' db') : RoomFor db' ts := by
  intro a' ha'
  obtain ⟨a, ha, hmoved⟩ := hc.balances a' ha'
  have hle := h a ha
  rw [movable, List.map_cons, List.sum_cons] at hle
  rw [movable]
  omega

theorem reconcileAll_closes {as : List Action} (h₀ : Initial s₀) {responses : String → HttpResponse}
    (hresponses : ∀ id, (responses id).statusFits ∧ ¬ (responses id).inconclusive)
    {ts : List Transfer} (hn : (ts.map Transfer.id).Nodup)
    (h : Runs.run (step cfg) s₀ as = some s)
    (hts : ∀ t ∈ ts, Waiting cfg now s.store.db t) (hroom : RoomFor s.store.db ts) :
    ∃ s', Runs.run (step cfg) s (reconcileAll now responses s.reconciles.length ts) = some s' ∧
      s'.store.db.transfers.map Transfer.id = s.store.db.transfers.map Transfer.id ∧
      (∀ t ∈ ts, ∃ t', s'.store.db.transfer? t.id = some t' ∧ SameTerms t t' ∧
        ClosedBy t (responses t.id) t') ∧
      ∀ id, id ∉ ts.map Transfer.id → s'.store.db.transfer? id = s.store.db.transfer? id := by
  induction ts generalizing s as with
  | nil => exact ⟨s, rfl, rfl, by simp, fun _ _ => rfl⟩
  | cons t ts ih =>
      simp only [List.map_cons, List.nodup_cons] at hn
      obtain ⟨hsound, haudited⟩ := run_audited h₀ h
      have hwaiting := hts t (List.mem_cons_self ..)
      obtain ⟨hfits, hdecides⟩ := hresponses t.id
      have hvalid : ∀ u ∈ ts, u.Valid := fun u hu =>
        haudited.valid u (Table.lookup_mem (hts u (List.mem_cons_of_mem _ hu)).row)
      obtain ⟨s₁, t', hrun, hlength, hclosed, hcloses⟩ := reconcileRun_closes h₀.seeded hsound
        haudited hwaiting (hroom.hasRoom hvalid) hfits hdecides
      have hother : ∀ u ∈ ts, u.id ≠ t.id := by
        intro u hu heq
        refine hn.1 ?_
        rw [← heq]
        exact List.mem_map_of_mem hu
      have hrest : ∀ u ∈ ts, Waiting cfg now s₁.store.db u := by
        intro u hu
        have hw := hts u (List.mem_cons_of_mem _ hu)
        exact { hw with row := (hcloses.others u.id (hother u hu)).trans hw.row }
      obtain ⟨s', hrun', hids, hrows, hothers⟩ :=
        ih hn.2 (Runs.run_append.mpr ⟨s, h, hrun⟩) hrest (hroom.closed hcloses)
      refine ⟨s', ?_, hids.trans hcloses.ids, ?_, ?_⟩
      · rw [hlength] at hrun'
        exact Runs.run_append.mpr ⟨s₁, hrun, hrun'⟩
      · intro u hu
        rcases List.mem_cons.mp hu with rfl | hu
        · refine ⟨t', ?_, hcloses.terms, hclosed⟩
          rw [hothers u.id hn.1]
          exact hcloses.row
        · exact hrows u hu
      · intro id hid
        rw [List.map_cons, List.mem_cons, not_or] at hid
        rw [hothers id hid.2, hcloses.others id hid.1]

/-- The source points of the transfers of the program that are with an operator. -/
def reviewedPoints (transfers : List Transfer) (programId : Nat) : Int :=
  ((transfers.filter fun t =>
    decide (t.sourceProgramId = programId ∧ t.status = .manualReview)).map
      Transfer.sourcePoints).sum

theorem effect_closed {a : Account} (hty : a.accountType = .transferClearing)
    (hs : t.status ∈ closedStatuses) :
    t.effect a = if t.sourceProgramId = a.programId ∧ t.status = .manualReview
      then t.sourcePoints else 0 := by
  simp only [Transfer.effect, hty, eq_comm]
  have hheld : t.status ∈ heldStatuses ↔ t.status = .manualReview := by
    simp only [closedStatuses, List.mem_cons, List.not_mem_nil, or_false] at hs
    rcases hs with hs | hs | hs <;> simp [hs, heldStatuses]
  simp only [hheld, eq_comm]

/-- With every transfer closed, clearing holds what is with an operator. -/
theorem Sound.clearing_closed {db₀ db : Database} (h : Sound db₀ db) (hs : Seeded db₀)
    (hclosed : ∀ t ∈ db.transfers, t.status ∈ closedStatuses) {a : Account} (ha : a ∈ db.accounts)
    (hty : a.accountType = .transferClearing) :
    a.balance = reviewedPoints db.transfers a.programId := by
  obtain ⟨a₀, ha₀, rfl⟩ := h.seeded_of_mem ha
  have hzero : a₀.balance = 0 := hs.clearing a₀ ha₀ hty
  show a₀.balance + effects db.transfers a₀ = _
  rw [hzero, zero_add, effects, reviewedPoints, ← sum_map_ite]
  refine congrArg List.sum (List.map_congr_left fun t ht => ?_)
  have hty₀ : a₀.accountType = .transferClearing := hty
  exact effect_closed hty₀ (hclosed t ht)

/-- The unresolved transfers. -/
def Database.openTransfers (db : Database) : List Transfer :=
  db.transfers.filter fun t => decide (t.status ∈ openStatuses)

/-- From every reachable state, and at any instant at which the waiting times of its
unresolved transfers are over, the balances leaving room for their points: one reconcile
of each, with any answers that decide under a confirmation id that fits its column, is a
run of the service.  It closes each of them as its answer says, leaves every other
transfer as it was and opens none; and then each program's clearing holds exactly the
points of its transfers in MANUAL_REVIEW. -/
theorem every_transfer_closes {as : List Action} (h₀ : Initial s₀)
    (h : Runs.run (step cfg) s₀ as = some s)
    (hpolicy : 0 ≤ cfg.policy.stuckAfter ∧ 0 ≤ cfg.policy.notFoundGrace)
    (hclock : fitsDatetime now = true)
    (hnow : ∀ t ∈ s.store.db.openTransfers, fitsDatetime t.createdAt = true ∧
      t.createdAt + cfg.policy.stuckAfter ≤ now ∧ t.createdAt + cfg.policy.notFoundGrace ≤ now)
    (hroom : RoomFor s.store.db s.store.db.openTransfers)
    {responses : String → HttpResponse}
    (hresponses : ∀ id, (responses id).statusFits ∧ ¬ (responses id).inconclusive) :
    ∃ s', Runs.run (step cfg) s (reconcileAll now responses s.reconciles.length
        s.store.db.openTransfers) = some s' ∧
      s'.store.db.transfers.map Transfer.id = s.store.db.transfers.map Transfer.id ∧
      (∀ t ∈ s.store.db.transfers, ∃ t' ∈ s'.store.db.transfers, SameTerms t t' ∧
        (t.status ∈ openStatuses → ClosedBy t (responses t.id) t') ∧
        (t.status ∉ openStatuses → t' = t)) ∧
      ∀ a ∈ s'.store.db.accounts, a.accountType = .transferClearing →
        a.balance = reviewedPoints s'.store.db.transfers a.programId := by
  obtain ⟨hsound, -⟩ := run_audited h₀ h
  have hmem : ∀ t ∈ s.store.db.openTransfers,
      t ∈ s.store.db.transfers ∧ t.status ∈ openStatuses := by
    intro t ht
    obtain ⟨ht, hopen⟩ := List.mem_filter.mp ht
    exact ⟨ht, of_decide_eq_true hopen⟩
  obtain ⟨s', hrun, hids, hrows, hothers⟩ := reconcileAll_closes h₀ hresponses
    (hsound.transferIds.sublist (List.filter_sublist.map _)) h (by
      intro t ht
      obtain ⟨hcreated, hstuck, hgrace⟩ := hnow t ht
      obtain ⟨ht, hopen⟩ := hmem t ht
      exact ⟨Table.lookup_of_mem hsound.transferIds ht, hopen,
        fitsDatetime_between hcreated hclock (by linarith) (by linarith), hstuck,
        fitsDatetime_between hcreated hclock (by linarith) hgrace, hgrace⟩) hroom
  have houtcome : ∀ t ∈ s.store.db.transfers, ∃ t', s'.store.db.transfer? t.id = some t' ∧
      SameTerms t t' ∧ (t.status ∈ openStatuses → ClosedBy t (responses t.id) t') ∧
      (t.status ∉ openStatuses → t' = t) := by
    intro t ht
    by_cases hopen : t.status ∈ openStatuses
    · obtain ⟨t', ht', hterms, hclosed⟩ :=
        hrows t (List.mem_filter.mpr ⟨ht, decide_eq_true hopen⟩)
      exact ⟨t', ht', hterms, fun _ => hclosed, fun hno => absurd hopen hno⟩
    · refine ⟨t, ?_, SameTerms.refl t, fun hno => absurd hno hopen, fun _ => rfl⟩
      rw [hothers t.id]
      · exact Table.lookup_of_mem hsound.transferIds ht
      · intro hin
        obtain ⟨u, hu, huid⟩ := List.mem_map.mp hin
        obtain ⟨hu, huopen⟩ := hmem u hu
        rw [Table.eq_of_key_eq hsound.transferIds hu ht huid] at huopen
        exact hopen huopen
  obtain ⟨hsound', haudited'⟩ := run_audited h₀ (Runs.run_append.mpr ⟨s, h, hrun⟩)
  have hclosed : ∀ t' ∈ s'.store.db.transfers, t'.status ∈ closedStatuses := by
    intro t' ht'
    have hid : t'.id ∈ s.store.db.transfers.map Transfer.id := by
      rw [← hids]
      exact List.mem_map_of_mem ht'
    obtain ⟨t, ht, hid⟩ := List.mem_map.mp hid
    obtain ⟨u, hu, -, hopened, hkept⟩ := houtcome t ht
    have hrow := Table.lookup_of_mem hsound'.transferIds ht'
    rw [← hid] at hrow
    cases hu.symm.trans hrow
    by_cases hopen : t.status ∈ openStatuses
    · have hfinal := (hopened hopen).closed
      simp only [finalStatuses, closedStatuses, List.mem_cons, List.not_mem_nil, or_false]
        at hfinal ⊢
      rcases hfinal with hfinal | hfinal
      · exact .inl hfinal
      · exact .inr (.inl hfinal)
    · rw [hkept hopen]
      have hpending := (hsound.rows t ht).status
      cases hst : t.status <;> simp_all [openStatuses, stuckStatuses, closedStatuses]
  refine ⟨s', hrun, hids, ?_, ?_⟩
  · intro t ht
    obtain ⟨t', ht', hrest⟩ := houtcome t ht
    exact ⟨t', Table.lookup_mem ht', hrest⟩
  · intro a ha hty
    exact hsound'.clearing_closed h₀.seeded hclosed ha hty

end

/-- The partner has the credit the service asks about. -/
def creditFound : HttpResponse := ⟨200, some (.obj [("confirmation_id", .str "SKYWARD-1")])⟩

theorem submittedRun_waits :
    (Runs.run (step sampleConfig) freshState submittedRun).any (fun s =>
      (s.store.db.transfers.any fun t => decide (t.status = .partnerSubmitted)) &&
      (s.store.db.openTransfers.all fun t => decide (fitsDatetime t.createdAt = true ∧
        t.createdAt + sampleConfig.policy.stuckAfter ≤ 1000 ∧
        t.createdAt + sampleConfig.policy.notFoundGrace ≤ 1000)) &&
      s.store.db.accounts.all fun a =>
        decide (|a.balance| + movable s.store.db.openTransfers ≤ maxBigint)) = true := by
  decide +kernel

theorem every_transfer_closes_submittedRun :
    ∃ s t s' t', Runs.run (step sampleConfig) freshState submittedRun = some s ∧
      t ∈ s.store.db.transfers ∧
      Runs.run (step sampleConfig) s (reconcileAll 1000 (fun _ => creditFound) s.reconciles.length
        s.store.db.openTransfers) = some s' ∧
      t' ∈ s'.store.db.transfers ∧ SameTerms t t' ∧ ClosedBy t creditFound t' := by
  obtain ⟨s, hs, hwaits⟩ := (Option.any_eq_true _ _).mp submittedRun_waits
  simp only [Bool.and_eq_true, List.any_eq_true, List.all_eq_true, decide_eq_true_eq] at hwaits
  obtain ⟨⟨⟨t, ht, hst⟩, hnow⟩, hroom⟩ := hwaits
  have hdecides : creditFound.statusFits ∧ ¬ creditFound.inconclusive := by
    refine ⟨?_, fun hopen => hopen.2 ⟨rfl, rfl⟩⟩
    intro _ c hc
    cases hc
    decide
  obtain ⟨s', hrun, -, hrows, -⟩ := every_transfer_closes freshState_initial hs (by decide)
    (by decide) hnow hroom (fun _ => hdecides)
  obtain ⟨t', ht', hterms, hclosed, -⟩ := hrows t ht
  have hopen : t.status ∈ openStatuses := by simp [hst, openStatuses, stuckStatuses]
  exact ⟨s, t, s', t', hs, ht, hrun, ht', hterms, hclosed hopen⟩

end LoyaltyTransfer
