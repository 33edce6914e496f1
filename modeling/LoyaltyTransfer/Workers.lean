/-
# `LoyaltyTransfer.Workers` — may two workers hold one transfer

`run_once`, as any number of copies of `app/workers/reconciler.py` call it: a batch
is claimed under one lease, counted from the clock that `claim_due` reads first, and
its transfers are reconciled one after another.

    claimed at                              + lease
    ├───────────────────────────────────────┤ from here the rest can be claimed again
       ├─ reconcile ─┼─ reconcile ─┼─ reconcile ─┤

The settings ask the lease to outlast one partner call, not a batch of them.

**Proved here.**  In every run whose claims all come before the leases of unfinished
rounds run out, no transfer is in the rounds of two workers (`rounds_apart`); that is
so with every setting whose lease outlasts a whole batch (`lease_outlasts_batch`).
A lease that outlasts one call is not enough (`claimed_twice`).
-/
import LoyaltyTransfer.Timing

namespace LoyaltyTransfer

open Transaction

/-! ## Who schedules the next check -/

/-- What `reconcile` may still have to resolve. -/
def openStatuses : List TransferStatus := stuckStatuses ++ [.pendingVerification]

/-- The next check that `_apply_partner_outcome` schedules, if it leaves the transfer
open. -/
def outcomeRecheck (verificationDelay now : Time) (result : PartnerCreditResult)
    (t : Transfer) : Option Time :=
  if t.status ≠ .partnerSubmitted then none
  else
    match result.outcome, nonempty result.confirmationId with
    | .success, some _ => none
    | .rejected, _ => none
    | .notSent, _ => none
    | _, _ => some (now + verificationDelay)

/-- The next check that `_apply` schedules, if it leaves the transfer open. -/
def statusRecheck (policy : ReconciliationPolicy) (now : Time) (answer : PartnerStatusResult)
    (t : Transfer) : Option Time :=
  if t.status ∉ verifiableStatuses then none
  else
    match answer.status, nonempty answer.confirmationId with
    | .completed, some _ => none
    | .notFound, _ =>
        let decidableAt := t.createdAt + policy.notFoundGrace
        if decidableAt ≤ now then none else some (min (now + policy.backoffBase) decidableAt)
    | _, _ =>
        let attempts := t.verificationAttempts + 1
        if policy.maxAttempts ≤ attempts then none
        else (policy.backoff attempts).toOption.map fun delay => now + delay

/-- The transfer an action schedules another check for, and when. -/
def State.rechecks (cfg : Config) (s : State) : Action → Option (String × Time)
  | .request i (.outcome now _) =>
      match (s.requests[i]?).map Request.pc with
      | some (.answered _ d result) =>
          ((s.store.db.transfer? d.transferId).bind
            (outcomeRecheck cfg.verificationDelay now result)).map fun v => (d.transferId, v)
      | _ => none
  | .reconcile k (.apply now _) =>
      match s.reconciles[k]? with
      | some ⟨transferId, .resolving answer⟩ =>
          ((s.store.db.transfer? transferId).bind
            (statusRecheck cfg.policy now answer)).map fun v => (transferId, v)
      | _ => none
  | _ => none

/-- Every open transfer is scheduled as it was, is new, or is the one rescheduled. -/
def Reschedules (db db' : Database) (r : Option (String × Time)) : Prop :=
  ∀ t' ∈ db'.transfers, t'.status ∈ openStatuses →
    (∃ t ∈ db.transfers, t.id = t'.id ∧ t.status ∈ openStatuses ∧
      t.nextVerificationAt = t'.nextVerificationAt) ∨
    (∀ t ∈ db.transfers, t.id ≠ t'.id) ∨
    ∃ v, r = some (t'.id, v) ∧ t'.nextVerificationAt = some v

section

variable {db db' : Database} {r : Option (String × Time)} {t : Transfer}

theorem reschedules_same (h : db'.transfers = db.transfers) : Reschedules db db' r := by
  intro t' ht' hopen
  rw [h] at ht'
  exact .inl ⟨t', ht', rfl, hopen, rfl⟩

/-- The transfer written is closed, or scheduled as `r` says. -/
theorem reschedules_replace (hdb : db'.transfers = Table.replace Transfer.id t db.transfers)
    (h : t.status ∈ openStatuses → ∃ v, r = some (t.id, v) ∧ t.nextVerificationAt = some v) :
    Reschedules db db' r := by
  intro t' ht' hopen
  rw [hdb] at ht'
  rcases Table.mem_replace.mp ht' with ⟨rfl, -⟩ | ⟨hold, -⟩
  · exact .inr (.inr (h hopen))
  · exact .inl ⟨t', hold, rfl, hopen, rfl⟩

theorem settleTransfer_reschedules (hn : (db.accounts.map Account.id).Nodup) {wall : Time}
    {confirmationId reason : String} {metadata : List (String × Json.Value)} {u : Unit}
    (h : (settleTransfer wall t confirmationId reason metadata).run db = .ok (u, db')) :
    Reschedules db db' r := by
  obtain ⟨accts, -, -, -, -, -, rfl⟩ := (settleTransfer_ok hn).mp h
  exact reschedules_replace rfl fun hopen =>
    absurd hopen (by simp [Transfer.settledAs, openStatuses, stuckStatuses])

theorem reverseTransfer_reschedules (hn : (db.accounts.map Account.id).Nodup) {wall : Time}
    {code : TransferFailureCode} {message reason : String}
    {metadata : List (String × Json.Value)} {u : Unit}
    (h : (reverseTransfer wall t code message reason metadata).run db = .ok (u, db')) :
    Reschedules db db' r := by
  obtain ⟨clearing, source, -, -, -, -, -, -, rfl⟩ := (reverseTransfer_ok hn).mp h
  exact reschedules_replace rfl fun hopen =>
    absurd hopen (by simp [Transfer.reversedAs, openStatuses, stuckStatuses])

theorem openTransfer_reschedules (hn : (db.accounts.map Account.id).Nodup)
    {maxPoints : Option Int} {now createdAt : Time} {transferId userId key : String}
    {request : TransferRequest} {d : DebitedTransfer}
    (h : (openTransfer maxPoints now createdAt transferId userId request key).run db =
      .ok (d, db')) : Reschedules db db' r := by
  obtain ⟨terms, t, events, -, -, -, hopening, -, rfl⟩ := openTransfer_change hn h
  intro t' ht' hopen
  rcases List.mem_append.mp ht' with hold | hnew
  · exact .inl ⟨t', hold, rfl, hopen, rfl⟩
  · rw [List.mem_singleton.mp hnew]
    exact .inr (.inl hopening.insertable.id)

theorem markSubmitted_reschedules {now : Time} {transferId partnerCode : String} {u : Unit}
    (h : (markSubmitted now transferId partnerCode).run db = .ok (u, db')) :
    Reschedules db db' r := by
  obtain ⟨t, event, ht, hs, -, -, rfl⟩ := markSubmitted_change h
  intro t' ht' hopen
  rcases Table.mem_replace.mp ht' with ⟨rfl, -⟩ | ⟨hold, -⟩
  · exact .inl ⟨t, Table.lookup_mem ht, rfl, by rw [hs]; decide, rfl⟩
  · exact .inl ⟨t', hold, rfl, hopen, rfl⟩

/-- An answer to a credit that settles nothing schedules the first check. -/
theorem outcomeRecheck_unknown {verificationDelay now : Time} {result : PartnerCreditResult}
    (hst : t.status = .partnerSubmitted) (hrejected : result.outcome ≠ .rejected)
    (hnotSent : result.outcome ≠ .notSent)
    (hunconfirmed : ∀ c, result.outcome = .success → nonempty result.confirmationId ≠ some c) :
    outcomeRecheck verificationDelay now result t = some (now + verificationDelay) := by
  simp only [outcomeRecheck, if_neg (not_not.mpr hst)]

theorem applyPartnerOutcome_reschedules (hn : (db.accounts.map Account.id).Nodup)
    {verificationDelay now wall : Time} {transferId : String} {result : PartnerCreditResult}
    {status : TransferStatus}
    (h : (applyPartnerOutcome verificationDelay now wall transferId result).run db =
      .ok (status, db')) :
    Reschedules db db' (((db.transfer? transferId).bind
      (outcomeRecheck verificationDelay now result)).map fun v => (transferId, v)) := by
  obtain ⟨t, rfl, ht, hrun⟩ := applyPartnerOutcome_inv h
  simp only [ht, Option.bind_some]
  rcases hrun with ⟨-, -, rfl⟩ | ⟨hs, hrun⟩
  · exact reschedules_same rfl
  · cases hrun with
    | settled _ _ hrun => exact settleTransfer_reschedules hn hrun
    | rejected _ hrun => exact reverseTransfer_reschedules hn hrun
    | unavailable _ hrun => exact reverseTransfer_reschedules hn hrun
    | parked hrejected hnotSent hunconfirmed =>
        refine reschedules_replace rfl fun _ => ⟨now + verificationDelay, ?_, rfl⟩
        rw [outcomeRecheck_unknown hs hrejected hnotSent hunconfirmed]
        rfl

theorem reverseInterrupted_reschedules (hn : (db.accounts.map Account.id).Nodup) {wall : Time}
    {transferId : String} {result : ReconcileResult}
    (h : (reverseInterrupted wall transferId).run db = .ok (result, db')) :
    Reschedules db db' r := by
  obtain ⟨t, -, -, ⟨-, -, rfl⟩ | ⟨-, -, _, _, _, hrun⟩⟩ := reverseInterrupted_inv h
  · exact reschedules_same rfl
  · exact reverseTransfer_reschedules hn hrun

/-- NOT_FOUND before the end of the grace schedules the next check. -/
theorem statusRecheck_early {policy : ReconciliationPolicy} {now : Time}
    {answer : PartnerStatusResult} (hv : t.status ∈ verifiableStatuses)
    (hst : answer.status = .notFound) (hearly : now < t.createdAt + policy.notFoundGrace) :
    statusRecheck policy now answer t =
      some (min (now + policy.backoffBase) (t.createdAt + policy.notFoundGrace)) := by
  simp only [statusRecheck, if_neg (not_not.mpr hv), hst, if_neg (not_le.mpr hearly)]

/-- So does an inconclusive answer, up to the last. -/
theorem statusRecheck_inconclusive {policy : ReconciliationPolicy} {now : Time}
    {answer : PartnerStatusResult} (hv : t.status ∈ verifiableStatuses)
    (hopen : answer.inconclusive = true) :
    statusRecheck policy now answer t =
      if policy.maxAttempts ≤ t.verificationAttempts + 1 then none
      else (policy.backoff (t.verificationAttempts + 1)).toOption.map fun delay =>
        now + delay := by
  obtain ⟨hmissing, hunconfirmed⟩ := inconclusive_iff.mp hopen
  simp only [statusRecheck, if_neg (not_not.mpr hv)]

theorem applyStatus_reschedules (hn : (db.accounts.map Account.id).Nodup)
    {policy : ReconciliationPolicy} {now wall : Time} {transferId : String}
    {answer : PartnerStatusResult} {result : ReconcileResult}
    (h : (applyStatus policy now wall transferId answer).run db = .ok (result, db')) :
    Reschedules db db' (((db.transfer? transferId).bind
      (statusRecheck policy now answer)).map fun v => (transferId, v)) := by
  obtain ⟨t, rfl, ht, hrun⟩ := applyStatus_inv h
  simp only [ht, Option.bind_some]
  rcases hrun with ⟨-, -, rfl⟩ | ⟨hv, hrun⟩
  · exact reschedules_same rfl
  · cases hrun with
    | settled _ _ hrun => exact settleTransfer_reschedules hn hrun
    | reversed _ _ hrun => exact reverseTransfer_reschedules hn hrun
    | early hst hearly hrow =>
        cases hrow
        rw [statusRecheck_early hv hst hearly]
        exact reschedules_replace rfl fun _ => ⟨_, rfl, rfl⟩
    | @counted delay _ _ hopen hmore hdelay =>
        refine reschedules_replace rfl fun _ => ⟨now + delay, ?_, rfl⟩
        rw [statusRecheck_inconclusive hv hopen, if_neg (not_le.mpr hmore), hdelay]
        rfl
    | exhausted =>
        refine reschedules_replace rfl fun hopen => absurd hopen ?_
        simp [Transfer.movedTo, openStatuses, stuckStatuses]

end

/-- An action other than a claim schedules no check but the one it records. -/
theorem Step.reschedules {cfg : Config} {s s' : State} {a : Action}
    (hn : (s.store.db.accounts.map Account.id).Nodup) (h : Step cfg s a s')
    (hclaim : ∀ now batchSize locked, a ≠ .claimDue now batchSize locked) :
    Reschedules s.store.db s'.store.db (s.rechecks cfg a) := by
  cases h with
  | request hr hm =>
      cases hm with
      | debited _ hrun => exact openTransfer_reschedules hn hrun
      | found _ hrun =>
          obtain ⟨_, -, -, rfl⟩ := findByIdempotencyKey_ok.mp hrun
          exact reschedules_same rfl
      | submitted _ hrun => exact markSubmitted_reschedules hrun
      | recorded hpc hrun =>
          have h := applyPartnerOutcome_reschedules hn hrun
          simpa only [State.rechecks, hr, Option.map_some, hpc] using h
      | _ => exact reschedules_same rfl
  | claimDue hrun => exact absurd rfl (hclaim _ _ _)
  | @reconcile k p _ _ _ hp hm =>
      obtain ⟨transferId, pc⟩ := p
      cases hm with
      | snapshotted _ hrun => exact reschedules_same (by rw [(snapshot_ok hrun).1])
      | reversed _ hrun => exact reverseInterrupted_reschedules hn hrun
      | applied hpc hrun =>
          have h := applyStatus_reschedules hn hrun
          cases hpc
          simpa only [State.rechecks, hp] using h
      | _ => exact reschedules_same rfl
  | rates => exact reschedules_same (RateChange.sameLedger _ _).transfers
  | clock => exact reschedules_same rfl
  | _ => exact reschedules_same rfl

/-! ## The workers -/

/-- A worker in `run_once`: the instant its claim counts from, when it came to the
transfer it is at, what of its batch it has not finished, and the reconcile it is in. -/
structure Worker where
  claimedAt : Time
  since : Time
  remaining : List String
  current : Option Nat

def Worker.idle : Worker := ⟨0, 0, [], none⟩

structure Fleet where
  timed : Timed
  workers : List Worker

inductive WorkerAction where
  | claim (now : Time) (locked : List String)
  | begin
  | move (a : ReconcileAction)
  | giveUp

inductive FleetAction where
  | join
  | worker (i : Nat) (a : WorkerAction)
  | other (a : Action)

/-- `run_once` after a step of the reconcile it is in: it goes on with the next
transfer, or the round is over when it raised. -/
def Worker.after (w : Worker) (moment : Time) : ReconcilePc → Worker
  | .finished _ => { w with since := moment, remaining := w.remaining.tail, current := none }
  | .stopped _ => { w with remaining := [], current := none }
  | _ => w

/-- Time passes. -/
def Fleet.wait (x : Fleet) (moment : Time) (workers : List Worker) : Option Fleet :=
  if x.timed.clock ≤ moment then some ⟨{ x.timed with clock := moment }, workers⟩ else none

section

variable (cfg : Config) (batchSize : Nat) (dbTime : Time)

/-- A step of worker `i`.  It gives up what is left of its batch when it is told to
stop, and when its process dies. -/
def workerStep (x : Fleet) (moment : Time) (i : Nat) (w : Worker) : WorkerAction → Option Fleet
  | .claim now locked =>
      match w.remaining, (claimDue cfg.policy now batchSize locked).run x.timed.state.store.db with
      | [], .ok (claimed, _) =>
          (timedStep cfg x.timed (moment, .claimDue now batchSize locked)).map fun timed =>
            ⟨timed, x.workers.set i ⟨now, moment, claimed, none⟩⟩
      | _, _ => none
  | .begin =>
      match w.current, w.remaining with
      | none, transferId :: _ =>
          (timedStep cfg x.timed (moment, .startReconcile transferId)).map fun timed =>
            ⟨timed, x.workers.set i { w with current := some x.timed.state.reconciles.length }⟩
      | _, _ => none
  | .move a =>
      match w.current with
      | some k =>
          (timedStep cfg x.timed (moment, .reconcile k a)).bind fun timed =>
            (timed.state.reconciles[k]?).map fun p =>
              ⟨timed, x.workers.set i (w.after moment p.pc)⟩
      | none => none
  | .giveUp => x.wait moment (x.workers.set i { w with remaining := [], current := none })

/-- A reconcile takes at most the partner deadline and the database's time. -/
def Fleet.inTime (x : Fleet) (moment : Time) : Bool :=
  x.workers.all fun w => w.remaining.isEmpty ||
    decide (moment ≤ w.since + cfg.partnerDeadline + dbTime)

/-- What the API and the operators may do; claims and the workers' reconciles are the
workers' own. -/
def Fleet.allows (x : Fleet) : Action → Bool
  | .claimDue _ _ _ => false
  | .reconcile k _ => x.workers.all fun w => decide (w.current ≠ some k)
  | _ => true

def fleetStep (x : Fleet) (e : Time × FleetAction) : Option Fleet :=
  if x.inTime cfg dbTime e.1 then
    match e.2 with
    | .join => x.wait e.1 (x.workers ++ [Worker.idle])
    | .worker i a =>
        match x.workers[i]? with
        | some w => workerStep cfg batchSize x e.1 i w a
        | none => none
    | .other a =>
        if x.allows a then
          (timedStep cfg x.timed (e.1, a)).map fun timed => ⟨timed, x.workers⟩
        else none
  else none

/-- The step comes in time for the leases: no worker claims when a transfer of another
worker's unfinished round is past its lease, and nobody else schedules a check of such
a transfer before that. -/
def inLease (x : Fleet) (e : Time × FleetAction) : Bool :=
  match e.2 with
  | .worker _ (.claim now _) =>
      x.workers.all fun w => x.timed.state.store.db.transfers.all fun t =>
        decide (t.id ∉ w.remaining) || decide (t.status ∉ openStatuses) ||
          decide (now < w.claimedAt + cfg.policy.lease)
  | .other a =>
      (x.timed.state.rechecks cfg a).all fun r => x.workers.all fun w =>
        decide (r.1 ∉ w.remaining) || decide (w.claimedAt + cfg.policy.lease ≤ r.2)
  | _ => true

end

/-! ## What a step can do -/

/-- The step of a fleet, inverted. -/
inductive FleetMove (cfg : Config) (batchSize : Nat) (x : Fleet) (moment : Time) :
    FleetAction → Fleet → Prop
  | joined (hclock : x.timed.clock ≤ moment) :
      FleetMove cfg batchSize x moment .join
        ⟨{ x.timed with clock := moment }, x.workers ++ [Worker.idle]⟩
  | claimed {i : Nat} {w : Worker} {now : Time} {locked claimed : List String} {timed : Timed}
      (hw : x.workers[i]? = some w) (hidle : w.remaining = [])
      (hrun : (claimDue cfg.policy now batchSize locked).run x.timed.state.store.db =
        .ok (claimed, timed.state.store.db))
      (h : timedStep cfg x.timed (moment, .claimDue now batchSize locked) = some timed) :
      FleetMove cfg batchSize x moment (.worker i (.claim now locked))
        ⟨timed, x.workers.set i ⟨now, moment, claimed, none⟩⟩
  | begun {i : Nat} {w : Worker} {transferId : String} {rest : List String} {timed : Timed}
      (hw : x.workers[i]? = some w) (hcurrent : w.current = none)
      (hremaining : w.remaining = transferId :: rest)
      (h : timedStep cfg x.timed (moment, .startReconcile transferId) = some timed) :
      FleetMove cfg batchSize x moment (.worker i .begin)
        ⟨timed, x.workers.set i { w with current := some x.timed.state.reconciles.length }⟩
  | moved {i k : Nat} {w : Worker} {a : ReconcileAction} {timed : Timed} {p : Reconcile}
      (hw : x.workers[i]? = some w) (hcurrent : w.current = some k)
      (h : timedStep cfg x.timed (moment, .reconcile k a) = some timed)
      (hp : timed.state.reconciles[k]? = some p) :
      FleetMove cfg batchSize x moment (.worker i (.move a))
        ⟨timed, x.workers.set i (w.after moment p.pc)⟩
  | gaveUp {i : Nat} {w : Worker} (hw : x.workers[i]? = some w)
      (hclock : x.timed.clock ≤ moment) :
      FleetMove cfg batchSize x moment (.worker i .giveUp)
        ⟨{ x.timed with clock := moment },
          x.workers.set i { w with remaining := [], current := none }⟩
  | other {a : Action} {timed : Timed} (hallows : x.allows a = true)
      (h : timedStep cfg x.timed (moment, a) = some timed) :
      FleetMove cfg batchSize x moment (.other a) ⟨timed, x.workers⟩

section

variable {cfg : Config} {batchSize : Nat} {dbTime : Time} {x x' : Fleet} {moment : Time}

theorem wait_inv {workers : List Worker} (h : x.wait moment workers = some x') :
    x.timed.clock ≤ moment ∧ x' = ⟨{ x.timed with clock := moment }, workers⟩ := by
  simp only [Fleet.wait] at h
  split at h
  · rename_i hclock
    cases h
    exact ⟨hclock, rfl⟩
  · cases h

theorem workerStep_move {i : Nat} {w : Worker} {a : WorkerAction}
    (hw : x.workers[i]? = some w) (h : workerStep cfg batchSize x moment i w a = some x') :
    FleetMove cfg batchSize x moment (.worker i a) x' := by
  cases a with
  | claim now locked =>
      simp only [workerStep] at h
      split at h
      · rename_i claimed db hidle hrun
        obtain ⟨timed, htimed, rfl⟩ := Option.map_eq_some_iff.mp h
        refine .claimed hw hidle ?_ htimed
        obtain ⟨-, -, -, hstep⟩ := timedStep_inv htimed
        rw [hrun]
        generalize timed.state = s' at hstep
        cases hstep with
        | claimDue hrun' =>
            rw [hrun] at hrun'
            cases hrun'
            rfl
        | claimRaised hrun' =>
            rw [hrun] at hrun'
            cases hrun'
      · cases h
  | begin =>
      simp only [workerStep] at h
      split at h
      · rename_i transferId rest hcurrent hremaining
        obtain ⟨timed, htimed, rfl⟩ := Option.map_eq_some_iff.mp h
        exact .begun hw hcurrent hremaining htimed
      · cases h
  | move a =>
      simp only [workerStep] at h
      split at h
      · rename_i k hcurrent
        obtain ⟨timed, htimed, h⟩ := Option.bind_eq_some_iff.mp h
        obtain ⟨p, hp, rfl⟩ := Option.map_eq_some_iff.mp h
        exact .moved hw hcurrent htimed hp
      · cases h
  | giveUp =>
      obtain ⟨hclock, rfl⟩ := wait_inv h
      exact .gaveUp hw hclock

theorem fleetStep_inv {e : Time × FleetAction} (h : fleetStep cfg batchSize dbTime x e = some x') :
    x.inTime cfg dbTime e.1 = true ∧ FleetMove cfg batchSize x e.1 e.2 x' := by
  obtain ⟨moment, a⟩ := e
  simp only [fleetStep] at h
  split at h
  · rename_i htime
    refine ⟨htime, ?_⟩
    cases a with
    | join =>
        obtain ⟨hclock, rfl⟩ := wait_inv h
        exact .joined hclock
    | worker i a =>
        cases hw : x.workers[i]? with
        | none => simp [hw] at h
        | some w =>
            simp only [hw] at h
            exact workerStep_move hw h
    | other a =>
        simp only at h
        split at h
        · rename_i hallows
          obtain ⟨timed, htimed, rfl⟩ := Option.map_eq_some_iff.mp h
          exact .other hallows htimed
        · cases h
  · cases h

end

/-! ## The rounds -/

/-- No transfer is in two rounds, and none that is open in a round can be claimed
before the lease of the round is over. -/
structure RoundsLeased (cfg : Config) (x : Fleet) : Prop where
  apart : ∀ (i j : Nat) (w v : Worker) (id : String), x.workers[i]? = some w →
    x.workers[j]? = some v → id ∈ w.remaining → id ∈ v.remaining → i = j
  distinct : ∀ w ∈ x.workers, w.remaining.Nodup
  known : ∀ w ∈ x.workers, ∀ id ∈ w.remaining,
    ∃ t ∈ x.timed.state.store.db.transfers, t.id = id
  lease : ∀ w ∈ x.workers, ∀ t ∈ x.timed.state.store.db.transfers, t.id ∈ w.remaining →
    t.status ∈ openStatuses →
      ∃ next, t.nextVerificationAt = some next ∧ w.claimedAt + cfg.policy.lease ≤ next
  current : ∀ w ∈ x.workers, ∀ k, w.current = some k →
    ∃ p rest, x.timed.state.reconciles[k]? = some p ∧ w.remaining = p.transferId :: rest

section

variable {cfg : Config} {batchSize : Nat} {dbTime : Time} {x x' : Fleet} {db₀ : Database}
  {a : Action}

/-- Rounds only get shorter, and what is left in them keeps its lease. -/
theorem RoundsLeased.shrink (h : RoundsLeased cfg x)
    (hworkers : ∀ (j : Nat) (w' : Worker), x'.workers[j]? = some w' → w'.remaining = [] ∨
      ∃ w, x.workers[j]? = some w ∧ w'.claimedAt = w.claimedAt ∧
        w'.remaining.Sublist w.remaining)
    (hids : ∀ t ∈ x.timed.state.store.db.transfers,
      ∃ t' ∈ x'.timed.state.store.db.transfers, t'.id = t.id)
    (hlease : ∀ (j : Nat) (w' : Worker), x'.workers[j]? = some w' →
      ∀ t' ∈ x'.timed.state.store.db.transfers, t'.id ∈ w'.remaining →
        t'.status ∈ openStatuses → (∃ t ∈ x.timed.state.store.db.transfers, t.id = t'.id ∧
          t.status ∈ openStatuses ∧ t.nextVerificationAt = t'.nextVerificationAt) ∨
        ∃ next, t'.nextVerificationAt = some next ∧ w'.claimedAt + cfg.policy.lease ≤ next)
    (hcurrent : ∀ (j : Nat) (w' : Worker), x'.workers[j]? = some w' → ∀ k,
      w'.current = some k → ∃ p rest, x'.timed.state.reconciles[k]? = some p ∧
        w'.remaining = p.transferId :: rest) : RoundsLeased cfg x' := by
  have hmem : ∀ (j : Nat) (w' : Worker) (id : String), x'.workers[j]? = some w' →
      id ∈ w'.remaining → ∃ w, x.workers[j]? = some w ∧ w'.claimedAt = w.claimedAt ∧
        id ∈ w.remaining := by
    intro j w' id hw' hid
    rcases hworkers j w' hw' with hnil | ⟨w, hw, hclaimed, hsub⟩
    · rw [hnil] at hid
      cases hid
    · exact ⟨w, hw, hclaimed, hsub.subset hid⟩
  constructor
  · intro i j w' v' id hw' hv' hidw hidv
    obtain ⟨w, hw, -, hidw⟩ := hmem i w' id hw' hidw
    obtain ⟨v, hv, -, hidv⟩ := hmem j v' id hv' hidv
    exact h.apart i j w v id hw hv hidw hidv
  · intro w' hw'
    obtain ⟨j, hj⟩ := List.mem_iff_getElem?.mp hw'
    rcases hworkers j w' hj with hnil | ⟨w, hw, -, hsub⟩
    · rw [hnil]
      exact List.nodup_nil
    · exact (h.distinct w (List.mem_of_getElem? hw)).sublist hsub
  · intro w' hw' id hid
    obtain ⟨j, hj⟩ := List.mem_iff_getElem?.mp hw'
    obtain ⟨w, hw, -, hid⟩ := hmem j w' id hj hid
    obtain ⟨t, ht, rfl⟩ := h.known w (List.mem_of_getElem? hw) id hid
    exact hids t ht
  · intro w' hw' t' ht' hid hopen
    obtain ⟨j, hj⟩ := List.mem_iff_getElem?.mp hw'
    rcases hlease j w' hj t' ht' hid hopen with ⟨t, ht, hteq, htopen, hnext⟩ | hnext
    · obtain ⟨w, hw, hclaimed, hidw⟩ := hmem j w' t'.id hj hid
      rw [hclaimed, ← hnext]
      rw [← hteq] at hidw
      exact h.lease w (List.mem_of_getElem? hw) t ht hidw htopen
    · exact hnext
  · intro w' hw' k hk
    obtain ⟨j, hj⟩ := List.mem_iff_getElem?.mp hw'
    exact hcurrent j w' hj k hk

theorem Step.reconcile_kept {s s' : State} {a : Action} (h : Step cfg s a s') {k : Nat}
    {p : Reconcile} (hp : s.reconciles[k]? = some p) :
    ∃ p', s'.reconciles[k]? = some p' ∧ p'.transferId = p.transferId := by
  cases h with
  | startReconcile =>
      have hlt := (List.getElem?_eq_some_iff.mp hp).1
      exact ⟨p, by rw [List.getElem?_append_left hlt]; exact hp, rfl⟩
  | @reconcile j q _ _ pc hq hm =>
      by_cases hjk : j = k
      · subst hjk
        rw [hp] at hq
        cases hq
        exact ⟨{ p with pc }, List.getElem?_set_self (List.getElem?_eq_some_iff.mp hp).1, rfl⟩
      · exact ⟨p, by rw [List.getElem?_set_ne hjk]; exact hp, rfl⟩
  | _ => exact ⟨p, hp, rfl⟩

/-- The current reconciles stay what they are. -/
theorem RoundsLeased.current_kept (h : RoundsLeased cfg x)
    (hstep : Step cfg x.timed.state a x'.timed.state) {w : Worker} (hw : w ∈ x.workers) {k : Nat}
    (hk : w.current = some k) : ∃ p rest, x'.timed.state.reconciles[k]? = some p ∧
      w.remaining = p.transferId :: rest := by
  obtain ⟨p, rest, hp, hrem⟩ := h.current w hw k hk
  obtain ⟨p', hp', hid⟩ := hstep.reconcile_kept hp
  exact ⟨p', rest, hp', by rw [hid]; exact hrem⟩

theorem ids_kept (hsound : Sound db₀ x.timed.state.store.db)
    (hs : Seeded db₀) (hstep : Step cfg x.timed.state a x'.timed.state) :
    ∀ t ∈ x.timed.state.store.db.transfers,
      ∃ t' ∈ x'.timed.state.store.db.transfers, t'.id = t.id := by
  intro t ht
  have hchange := hstep.change (hsound.accountIds hs)
  obtain ⟨t', ht', -, -⟩ := hchange.advance (Table.lookup_of_mem hsound.transferIds ht)
  exact ⟨t', Table.lookup_mem ht', Table.lookup_key ht'⟩

/-- Nothing in the database changes. -/
theorem RoundsLeased.wait (h : RoundsLeased cfg x) (hstate : x'.timed.state = x.timed.state)
    (hworkers : ∀ (j : Nat) (w' : Worker), x'.workers[j]? = some w' →
      (w'.remaining = [] ∧ w'.current = none) ∨ x.workers[j]? = some w') :
    RoundsLeased cfg x' := by
  refine h.shrink ?_ ?_ ?_ ?_
  · intro j w' hw'
    rcases hworkers j w' hw' with ⟨hnil, -⟩ | hw
    · exact .inl hnil
    · exact .inr ⟨w', hw, rfl, List.Sublist.refl _⟩
  · intro t ht
    rw [hstate]
    exact ⟨t, ht, rfl⟩
  · intro j w' hw' t' ht' hid hopen
    rw [hstate] at ht'
    exact .inl ⟨t', ht', rfl, hopen, rfl⟩
  · intro j w' hw' k hk
    rcases hworkers j w' hw' with ⟨-, hnone⟩ | hw
    · rw [hnone] at hk
      cases hk
    · rw [hstate]
      exact h.current w' (List.mem_of_getElem? hw) k hk

/-- An action of the API or an operator. -/
theorem RoundsLeased.other (h : RoundsLeased cfg x) (hsound : Sound db₀ x.timed.state.store.db)
    (hs : Seeded db₀) (hstep : Step cfg x.timed.state a x'.timed.state)
    (hworkers : x'.workers = x.workers) (hallows : x.allows a = true)
    (hC : ∀ id next, x.timed.state.rechecks cfg a = some (id, next) → ∀ w ∈ x.workers,
      id ∈ w.remaining → w.claimedAt + cfg.policy.lease ≤ next) : RoundsLeased cfg x' := by
  have hclaim : ∀ now batchSize locked, a ≠ .claimDue now batchSize locked := by
    rintro now batchSize locked rfl
    cases hallows
  refine h.shrink ?_ (ids_kept hsound hs hstep) ?_ ?_
  · intro j w hw
    rw [hworkers] at hw
    exact .inr ⟨w, hw, rfl, List.Sublist.refl _⟩
  · intro j w hw t' ht' hid hopen
    rw [hworkers] at hw
    have hmem := List.mem_of_getElem? hw
    rcases hstep.reschedules (hsound.accountIds hs) hclaim t' ht' hopen with
      hkept | hnew | ⟨next, hrecheck, hnext⟩
    · exact .inl hkept
    · obtain ⟨t, ht, heq⟩ := h.known w hmem t'.id hid
      exact absurd heq (hnew t ht)
    · exact .inr ⟨next, hnext, hC t'.id next hrecheck w hmem hid⟩
  · intro j w hw k hk
    rw [hworkers] at hw
    exact h.current_kept hstep (List.mem_of_getElem? hw) hk

/-- A worker comes to the next transfer of its round. -/
theorem RoundsLeased.begun (h : RoundsLeased cfg x) {i : Nat} {w : Worker} {transferId : String}
    {rest : List String} (hw : x.workers[i]? = some w)
    (hremaining : w.remaining = transferId :: rest)
    (hstep : Step cfg x.timed.state (.startReconcile transferId) x'.timed.state)
    (hworkers : x'.workers =
      x.workers.set i { w with current := some x.timed.state.reconciles.length }) :
    RoundsLeased cfg x' := by
  have hold : ∀ (j : Nat) (w' : Worker), x'.workers[j]? = some w' → ∃ v, x.workers[j]? = some v ∧
      w'.claimedAt = v.claimedAt ∧ w'.remaining = v.remaining := by
    intro j w' hw'
    rw [hworkers] at hw'
    rcases Runs.getElem?_set_cases hw' with ⟨rfl, rfl⟩ | ⟨-, hv⟩
    · exact ⟨w, hw, rfl, rfl⟩
    · exact ⟨w', hv, rfl, rfl⟩
  have hdb : x'.timed.state.store = x.timed.state.store := by
    generalize x'.timed.state = s' at hstep
    cases hstep
    rfl
  refine h.shrink ?_ ?_ ?_ ?_
  · intro j w' hw'
    obtain ⟨v, hv, hclaimed, hrem⟩ := hold j w' hw'
    exact .inr ⟨v, hv, hclaimed, by rw [hrem]⟩
  · intro t ht
    rw [hdb]
    exact ⟨t, ht, rfl⟩
  · intro j w' hw' t' ht' hid hopen
    rw [hdb] at ht'
    exact .inl ⟨t', ht', rfl, hopen, rfl⟩
  · intro j w' hw' k hk
    rw [hworkers] at hw'
    rcases Runs.getElem?_set_cases hw' with ⟨rfl, rfl⟩ | ⟨-, hv⟩
    · cases hk
      refine ⟨⟨transferId, .started⟩, rest, ?_, hremaining⟩
      generalize x'.timed.state = s' at hstep
      cases hstep
      simp
    · exact h.current_kept hstep (List.mem_of_getElem? hv) hk

theorem rechecks_reconcile {s : State} {k : Nat} {act : ReconcileAction} {id : String}
    {next : Time} (h : s.rechecks cfg (.reconcile k act) = some (id, next)) :
    (∃ now wall, act = .apply now wall) ∧
      ∃ p, s.reconciles[k]? = some p ∧ p.transferId = id := by
  cases act with
  | apply now wall =>
      refine ⟨⟨now, wall, rfl⟩, ?_⟩
      simp only [State.rechecks] at h
      split at h
      · rename_i transferId answer hp
        obtain ⟨v, -, heq⟩ := Option.map_eq_some_iff.mp h
        cases heq
        exact ⟨_, hp, rfl⟩
      · cases h
  | _ => cases h

/-- Recording an answer ends a reconcile. -/
theorem after_apply {s s' : State} {k : Nat} {now wall : Time} {p : Reconcile}
    (hstep : Step cfg s (.reconcile k (.apply now wall)) s') (hp : s'.reconciles[k]? = some p)
    (w : Worker) (moment : Time) : (w.after moment p.pc).remaining = w.remaining.tail ∨
      (w.after moment p.pc).remaining = [] := by
  cases hstep with
  | reconcile hq hm =>
      rw [List.getElem?_set_self (List.getElem?_eq_some_iff.mp hq).1, Option.some.injEq] at hp
      subst hp
      cases hm with
      | applied => exact .inl rfl
      | applyRaised => exact .inr rfl

theorem after_claimedAt (w : Worker) (moment : Time) (pc : ReconcilePc) :
    (w.after moment pc).claimedAt = w.claimedAt := by
  cases pc <;> rfl

theorem after_remaining (w : Worker) (moment : Time) (pc : ReconcilePc) :
    (w.after moment pc).remaining.Sublist w.remaining := by
  cases pc with
  | finished r => exact List.tail_sublist _
  | stopped f => exact List.nil_sublist _
  | _ => exact List.Sublist.refl _

theorem after_current {w : Worker} {moment : Time} {pc : ReconcilePc} {k : Nat}
    (h : (w.after moment pc).current = some k) : w.after moment pc = w := by
  cases pc with
  | finished r => cases h
  | stopped f => cases h
  | _ => rfl

/-- A step of the reconcile a worker is in: what it reschedules, it has finished. -/
theorem RoundsLeased.moved (h : RoundsLeased cfg x) (hsound : Sound db₀ x.timed.state.store.db)
    (hs : Seeded db₀) {i k : Nat} {w : Worker} {act : ReconcileAction} {moment : Time}
    {p' : Reconcile} (hw : x.workers[i]? = some w) (hcurrent : w.current = some k)
    (hstep : Step cfg x.timed.state (.reconcile k act) x'.timed.state)
    (hp' : x'.timed.state.reconciles[k]? = some p')
    (hworkers : x'.workers = x.workers.set i (w.after moment p'.pc)) : RoundsLeased cfg x' := by
  have hmem := List.mem_of_getElem? hw
  have hold : ∀ (j : Nat) (v' : Worker), x'.workers[j]? = some v' →
      (j = i ∧ v' = w.after moment p'.pc) ∨ (j ≠ i ∧ x.workers[j]? = some v') := by
    intro j v' hv'
    rw [hworkers] at hv'
    exact Runs.getElem?_set_cases hv'
  refine h.shrink ?_ (ids_kept hsound hs hstep) ?_ ?_
  · intro j v' hv'
    rcases hold j v' hv' with ⟨rfl, rfl⟩ | ⟨-, hv⟩
    · exact .inr ⟨w, hw, after_claimedAt w moment _, after_remaining w moment _⟩
    · exact .inr ⟨v', hv, rfl, List.Sublist.refl _⟩
  · intro j v' hv' t' ht' hid hopen
    have hknown : ∃ t ∈ x.timed.state.store.db.transfers, t.id = t'.id := by
      rcases hold j v' hv' with ⟨rfl, rfl⟩ | ⟨-, hv⟩
      · exact h.known w hmem t'.id ((after_remaining w moment _).subset hid)
      · exact h.known v' (List.mem_of_getElem? hv) t'.id hid
    rcases hstep.reschedules (hsound.accountIds hs) (by simp) t' ht' hopen with
      hkept | hnew | ⟨next, hrecheck, -⟩
    · exact .inl hkept
    · obtain ⟨t, ht, heq⟩ := hknown
      exact absurd heq (hnew t ht)
    · -- the transfer rescheduled is the head of this round, and no longer in it
      exfalso
      obtain ⟨⟨now, wall, rfl⟩, p, hp, hpid⟩ := rechecks_reconcile hrecheck
      obtain ⟨q, rest, hq, hremaining⟩ := h.current w hmem k hcurrent
      rw [hp] at hq
      cases hq
      rw [hpid] at hremaining
      rcases hold j v' hv' with ⟨rfl, rfl⟩ | ⟨hne, hv⟩
      · rcases after_apply hstep hp' w moment with htail | hnil
        · rw [htail, hremaining] at hid
          have hdistinct := h.distinct w hmem
          rw [hremaining] at hdistinct
          exact (List.nodup_cons.mp hdistinct).1 hid
        · rw [hnil] at hid
          cases hid
      · have hown : t'.id ∈ w.remaining := by
          rw [hremaining]
          exact List.mem_cons_self ..
        exact hne (h.apart j i v' w t'.id hv hw hid hown)
  · intro j v' hv' k' hk'
    rcases hold j v' hv' with ⟨rfl, rfl⟩ | ⟨-, hv⟩
    · have hsame := after_current hk'
      rw [hsame] at hk' ⊢
      exact h.current_kept hstep hmem hk'
    · exact h.current_kept hstep (List.mem_of_getElem? hv) hk'

theorem due_next {policy : ReconciliationPolicy} {now next : Time} {t : Transfer}
    (h : policy.due now t = true) (hnext : t.nextVerificationAt = some next) : next ≤ now := by
  simp only [ReconciliationPolicy.due, hnext, Option.any_some, Option.all_some, Bool.or_eq_true,
    Bool.and_eq_true, decide_eq_true_eq] at h
  rcases h with ⟨-, h⟩ | ⟨-, h⟩
  · exact h
  · exact h

theorem claimable_distinct {policy : ReconciliationPolicy} {now : Time} {locked : List String}
    {transfers : List Transfer} (hn : (transfers.map Transfer.id).Nodup) :
    ((claimable policy now batchSize locked transfers).map Transfer.id).Nodup := by
  refine List.Nodup.sublist ((List.take_sublist _ _).map _) ?_
  rw [((List.perm_insertionSort _ _).map _).nodup_iff]
  exact List.Nodup.sublist (List.filter_sublist.map _) hn

theorem Step.claimDue_reconciles {s s' : State} {now : Time} {locked : List String}
    (h : Step cfg s (.claimDue now batchSize locked) s') : s'.reconciles = s.reconciles := by
  cases h with
  | claimDue => rfl
  | claimRaised => rfl

theorem claimDue_length {policy : ReconciliationPolicy} {now : Time}
    {locked claimed : List String} {db db' : Database}
    (h : (claimDue policy now batchSize locked).run db = .ok (claimed, db')) :
    claimed.length ≤ batchSize := by
  obtain ⟨rfl, -⟩ := claimDue_ok.mp h
  rw [List.length_map]
  exact List.length_take_le _ _

/-- A claim: what it gets was in no round, and is leased from now on. -/
theorem RoundsLeased.claimed (h : RoundsLeased cfg x) (hsound : Sound db₀ x.timed.state.store.db)
    {i : Nat} {w : Worker} {now moment : Time} {locked claimed : List String}
    (hw : x.workers[i]? = some w)
    (hrun : (claimDue cfg.policy now batchSize locked).run x.timed.state.store.db =
      .ok (claimed, x'.timed.state.store.db))
    (hreconciles : x'.timed.state.reconciles = x.timed.state.reconciles)
    (hworkers : x'.workers = x.workers.set i ⟨now, moment, claimed, none⟩)
    (hC : ∀ v ∈ x.workers, ∀ t ∈ x.timed.state.store.db.transfers, t.id ∈ v.remaining →
      t.status ∈ openStatuses → now < v.claimedAt + cfg.policy.lease) : RoundsLeased cfg x' := by
  obtain ⟨hclaimed, -, hdb⟩ := claimDue_ok.mp hrun
  have hfree : ∀ v ∈ x.workers, ∀ id ∈ v.remaining, id ∉ claimed := by
    intro v hv id hid hclaim
    rw [hclaimed] at hclaim
    obtain ⟨t, ht, rfl⟩ := List.mem_map.mp hclaim
    obtain ⟨hmem, hdue, -⟩ := claimable_due ht
    have hopen : t.status ∈ openStatuses := by
      rcases due_status hdue with hstuck | hpending
      · exact List.mem_append_left _ hstuck
      · rw [hpending]
        decide
    obtain ⟨next, hnext, hle⟩ := h.lease v hv t hmem hid hopen
    exact absurd (hle.trans (due_next hdue hnext)) (not_le.mpr (hC v hv t hmem hid hopen))
  have hold : ∀ (j : Nat) (v' : Worker), x'.workers[j]? = some v' →
      (j = i ∧ v' = ⟨now, moment, claimed, none⟩) ∨ (j ≠ i ∧ x.workers[j]? = some v') := by
    intro j v' hv'
    rw [hworkers] at hv'
    exact Runs.getElem?_set_cases hv'
  have hrow : ∀ t' ∈ x'.timed.state.store.db.transfers,
      (t'.id ∈ claimed ∧ t'.nextVerificationAt = some (now + cfg.policy.lease)) ∨
        (t'.id ∉ claimed ∧ t' ∈ x.timed.state.store.db.transfers) := by
    intro t' ht'
    rw [hdb] at ht'
    obtain ⟨t, ht, rfl⟩ := List.mem_map.mp ht'
    by_cases hmem : t.id ∈ claimed
    · rw [if_pos hmem]
      exact .inl ⟨hmem, rfl⟩
    · rw [if_neg hmem]
      exact .inr ⟨hmem, ht⟩
  have hids : ∀ t ∈ x.timed.state.store.db.transfers,
      ∃ t' ∈ x'.timed.state.store.db.transfers, t'.id = t.id := by
    intro t ht
    rw [hdb]
    refine ⟨_, List.mem_map.mpr ⟨t, ht, rfl⟩, ?_⟩
    split
    · rfl
    · rfl
  constructor
  · intro j k v u id hv hu hidv hidu
    rcases hold j v hv with ⟨rfl, rfl⟩ | ⟨-, hv⟩
    · rcases hold k u hu with ⟨rfl, -⟩ | ⟨-, hu⟩
      · rfl
      · exact absurd hidv (hfree u (List.mem_of_getElem? hu) id hidu)
    · rcases hold k u hu with ⟨rfl, rfl⟩ | ⟨-, hu⟩
      · exact absurd hidu (hfree v (List.mem_of_getElem? hv) id hidv)
      · exact h.apart j k v u id hv hu hidv hidu
  · intro v hv
    obtain ⟨j, hj⟩ := List.mem_iff_getElem?.mp hv
    rcases hold j v hj with ⟨-, rfl⟩ | ⟨-, hv⟩
    · rw [hclaimed]
      exact claimable_distinct hsound.transferIds
    · exact h.distinct v (List.mem_of_getElem? hv)
  · intro v hv id hid
    obtain ⟨j, hj⟩ := List.mem_iff_getElem?.mp hv
    rcases hold j v hj with ⟨-, rfl⟩ | ⟨-, hv⟩
    · rw [hclaimed] at hid
      obtain ⟨t, ht, rfl⟩ := List.mem_map.mp hid
      exact hids t (claimable_due ht).1
    · obtain ⟨t, ht, rfl⟩ := h.known v (List.mem_of_getElem? hv) id hid
      exact hids t ht
  · intro v hv t' ht' hid hopen
    obtain ⟨j, hj⟩ := List.mem_iff_getElem?.mp hv
    rcases hrow t' ht' with ⟨hclaim, hnext⟩ | ⟨hclaim, ht⟩
    · rcases hold j v hj with ⟨-, rfl⟩ | ⟨-, hv⟩
      · exact ⟨_, hnext, le_rfl⟩
      · exact absurd hclaim (hfree v (List.mem_of_getElem? hv) t'.id hid)
    · rcases hold j v hj with ⟨-, rfl⟩ | ⟨-, hv⟩
      · exact absurd hid hclaim
      · exact h.lease v (List.mem_of_getElem? hv) t' ht hid hopen
  · intro v hv k hk
    obtain ⟨j, hj⟩ := List.mem_iff_getElem?.mp hv
    rcases hold j v hj with ⟨-, rfl⟩ | ⟨-, hv⟩
    · cases hk
    · rw [hreconciles]
      exact h.current v (List.mem_of_getElem? hv) k hk

/-! ## Along a run -/

/-- The step of a fleet is a step of the system, or only time passes. -/
theorem FleetMove.sound {moment : Time} {act : FleetAction}
    (h : FleetMove cfg batchSize x moment act x') (hs : Seeded db₀)
    (hsound : Sound db₀ x.timed.state.store.db) : Sound db₀ x'.timed.state.store.db := by
  have hstep : ∀ {a : Action} {timed : Timed},
      timedStep cfg x.timed (moment, a) = some timed → Sound db₀ timed.state.store.db := by
    intro a timed htimed
    obtain ⟨-, -, -, hstep⟩ := timedStep_inv htimed
    exact hsound.change hs (hstep.change (hsound.accountIds hs))
  cases h with
  | joined => exact hsound
  | claimed _ _ _ htimed => exact hstep htimed
  | begun _ _ _ htimed => exact hstep htimed
  | moved _ _ htimed => exact hstep htimed
  | gaveUp => exact hsound
  | other _ htimed => exact hstep htimed

theorem inLease_claim {moment now : Time} {i : Nat} {locked : List String} :
    inLease cfg x (moment, .worker i (.claim now locked)) = true ↔
      ∀ v ∈ x.workers, ∀ t ∈ x.timed.state.store.db.transfers, t.id ∈ v.remaining →
        t.status ∈ openStatuses → now < v.claimedAt + cfg.policy.lease := by
  simp only [inLease, List.all_eq_true, Bool.or_eq_true, decide_eq_true_eq, or_assoc]
  constructor
  · intro h v hv t ht hid hopen
    rcases h v hv t ht with hnot | hnot | hlt
    · exact absurd hid hnot
    · exact absurd hopen hnot
    · exact hlt
  · intro h v hv t ht
    by_cases hid : t.id ∈ v.remaining
    · by_cases hopen : t.status ∈ openStatuses
      · exact .inr (.inr (h v hv t ht hid hopen))
      · exact .inr (.inl hopen)
    · exact .inl hid

theorem inLease_other {moment : Time} (h : inLease cfg x (moment, .other a) = true) :
    ∀ id next, x.timed.state.rechecks cfg a = some (id, next) → ∀ w ∈ x.workers,
      id ∈ w.remaining → w.claimedAt + cfg.policy.lease ≤ next := by
  intro id next hrecheck w hw hid
  simp only [inLease, hrecheck, Option.all_some, List.all_eq_true, Bool.or_eq_true,
    decide_eq_true_eq] at h
  exact (h w hw).resolve_left (not_not.mpr hid)

theorem RoundsLeased.step (hI : RoundsLeased cfg x) (hs : Seeded db₀)
    (hsound : Sound db₀ x.timed.state.store.db) {moment : Time} {act : FleetAction}
    (hC : inLease cfg x (moment, act) = true) (h : FleetMove cfg batchSize x moment act x') :
    RoundsLeased cfg x' := by
  cases h with
  | joined =>
      refine hI.wait rfl fun j w' hw' => ?_
      rw [List.getElem?_append] at hw'
      split at hw'
      · exact .inr hw'
      · rw [List.mem_singleton.mp (List.mem_of_getElem? hw')]
        exact .inl ⟨rfl, rfl⟩
  | claimed hw _ hrun htimed =>
      obtain ⟨-, -, -, hstep⟩ := timedStep_inv htimed
      exact hI.claimed hsound hw hrun hstep.claimDue_reconciles rfl (inLease_claim.mp hC)
  | begun hw _ hremaining htimed =>
      obtain ⟨-, -, -, hstep⟩ := timedStep_inv htimed
      exact hI.begun hw hremaining hstep rfl
  | moved hw hcurrent htimed hp =>
      obtain ⟨-, -, -, hstep⟩ := timedStep_inv htimed
      exact hI.moved hsound hs hw hcurrent hstep hp rfl
  | gaveUp hw =>
      refine hI.wait rfl fun j w' hw' => ?_
      rcases Runs.getElem?_set_cases hw' with ⟨-, rfl⟩ | ⟨-, hold⟩
      · exact .inl ⟨rfl, rfl⟩
      · exact .inr hold
  | other hallows htimed =>
      obtain ⟨-, -, -, hstep⟩ := timedStep_inv htimed
      exact hI.other hsound hs hstep rfl hallows (inLease_other hC)

/-- The system before the first request, and no worker yet. -/
structure Fleet.Initial (x : Fleet) : Prop where
  state : LoyaltyTransfer.Initial x.timed.state
  workers : x.workers = []

theorem Fleet.Initial.leased (h : x.Initial) : RoundsLeased cfg x := by
  constructor <;> simp [h.workers]

/-- In a run whose steps all come in time for the leases, no transfer is in the rounds
of two workers: none is claimed by one before another has finished with it. -/
theorem rounds_apart {x₀ : Fleet} {es : List (Time × FleetAction)} (h₀ : x₀.Initial)
    (hC : Runs.AllSteps (fleetStep cfg batchSize dbTime) (fun x e => inLease cfg x e = true) x₀ es)
    (h : Runs.run (fleetStep cfg batchSize dbTime) x₀ es = some x) {i j : Nat} {w v : Worker}
    {id : String} (hw : x.workers[i]? = some w) (hv : x.workers[j]? = some v)
    (hidw : id ∈ w.remaining) (hidv : id ∈ v.remaining) : i = j := by
  have hI : Sound x₀.timed.state.store.db x.timed.state.store.db ∧ RoundsLeased cfg x := by
    refine Runs.run_invariant_of (I := fun x => Sound x₀.timed.state.store.db
      x.timed.state.store.db ∧ RoundsLeased cfg x) ?_ ⟨h₀.state.seeded.sound, h₀.leased⟩ hC h
    rintro x ⟨moment, act⟩ x' ⟨hsound, hleased⟩ hlease hstep
    obtain ⟨-, hmove⟩ := fleetStep_inv hstep
    exact ⟨hmove.sound h₀.state.seeded hsound, hleased.step h₀.state.seeded hsound hlease hmove⟩
  exact hI.2.apart i j w v id hw hv hidw hidv

/-! ## A lease for the whole batch -/

/-- What is left of a round is done in time, each transfer taking its full time. -/
def RoundsPunctual (cfg : Config) (batchSize : Nat) (dbTime : Time) (x : Fleet) : Prop :=
  ∀ w ∈ x.workers, w.remaining ≠ [] →
    w.since + w.remaining.length * (cfg.partnerDeadline + dbTime) ≤
      w.claimedAt + dbTime + batchSize * (cfg.partnerDeadline + dbTime)

/-- A claim commits within the database's time, and nobody else schedules a check of a
transfer in a round before its lease is over. -/
def undisturbed (cfg : Config) (dbTime : Time) (x : Fleet) (e : Time × FleetAction) : Bool :=
  match e.2 with
  | .worker _ (.claim now _) => decide (e.1 ≤ now + dbTime)
  | _ => inLease cfg x e

theorem inTime_since {moment : Time} (h : x.inTime cfg dbTime moment = true) {w : Worker}
    (hw : w ∈ x.workers) (hbusy : w.remaining ≠ []) :
    moment ≤ w.since + (cfg.partnerDeadline + dbTime) := by
  have hw := List.all_eq_true.mp h w hw
  simp only [Bool.or_eq_true, List.isEmpty_iff, decide_eq_true_eq] at hw
  have hle := hw.resolve_left hbusy
  linarith

theorem RoundsPunctual.step (hI : RoundsPunctual cfg batchSize dbTime x) {moment : Time}
    {act : FleetAction} (htime : 0 ≤ cfg.partnerDeadline + dbTime)
    (hinTime : x.inTime cfg dbTime moment = true)
    (hC : undisturbed cfg dbTime x (moment, act) = true)
    (h : FleetMove cfg batchSize x moment act x') : RoundsPunctual cfg batchSize dbTime x' := by
  have hset : ∀ {i : Nat} {w' : Worker},
      (w'.remaining ≠ [] → w'.since + w'.remaining.length * (cfg.partnerDeadline + dbTime) ≤
        w'.claimedAt + dbTime + batchSize * (cfg.partnerDeadline + dbTime)) →
      ∀ v ∈ x.workers.set i w', v.remaining ≠ [] →
        v.since + v.remaining.length * (cfg.partnerDeadline + dbTime) ≤
          v.claimedAt + dbTime + batchSize * (cfg.partnerDeadline + dbTime) := by
    intro i w' hnew v hv hbusy
    rcases List.mem_or_eq_of_mem_set hv with hold | rfl
    · exact hI v hold hbusy
    · exact hnew hbusy
  cases h with
  | joined =>
      intro w hw hbusy
      rcases List.mem_append.mp hw with hold | hnew
      · exact hI w hold hbusy
      · rw [List.mem_singleton.mp hnew] at hbusy
        exact absurd rfl hbusy
  | claimed _ _ hrun =>
      refine hset fun _ => ?_
      have hcommit := of_decide_eq_true hC
      have hlength := claimDue_length hrun
      exact add_le_add hcommit (mul_le_mul_of_nonneg_right (Nat.cast_le.mpr hlength) htime)
  | begun hw =>
      have hround := hI _ (List.mem_of_getElem? hw)
      exact hset hround
  | @moved i k w act timed p hw _ _ _ =>
      refine hset fun hbusy => ?_
      have hmem := List.mem_of_getElem? hw
      cases hpc : p.pc with
      | finished r =>
          simp only [hpc, Worker.after] at hbusy ⊢
          cases hremaining : w.remaining with
          | nil => simp [hremaining] at hbusy
          | cons transferId rest =>
              have hne : w.remaining ≠ [] := by
                rw [hremaining]
                exact List.cons_ne_nil _ _
              have hround := hI w hmem hne
              have hsince := inTime_since hinTime hmem hne
              rw [hremaining, List.length_cons, Nat.cast_succ] at hround
              rw [List.tail_cons]
              linarith
      | stopped f =>
          simp only [hpc, Worker.after] at hbusy
          exact absurd rfl hbusy
      | _ =>
          simp only [hpc, Worker.after] at hbusy ⊢
          exact hI w hmem hbusy
  | gaveUp => exact hset fun hbusy => absurd rfl hbusy
  | other => exact hI

/-- A claim finds every other round within its lease. -/
theorem RoundsPunctual.inLease (hI : RoundsPunctual cfg batchSize dbTime x) {moment : Time}
    {act : FleetAction} (htime : 0 ≤ cfg.partnerDeadline + dbTime)
    (hlease : dbTime + batchSize * (cfg.partnerDeadline + dbTime) < cfg.policy.lease)
    (hinTime : x.inTime cfg dbTime moment = true)
    (hC : undisturbed cfg dbTime x (moment, act) = true)
    (h : FleetMove cfg batchSize x moment act x') :
    LoyaltyTransfer.inLease cfg x (moment, act) = true := by
  cases h with
  | @claimed i w now _ _ _ _ _ _ htimed =>
      refine inLease_claim.mpr fun v hv t _ hid _ => ?_
      obtain ⟨-, rfl, hread, -⟩ := timedStep_inv htimed
      have hne : v.remaining ≠ [] := List.ne_nil_of_mem hid
      have hround := hI v hv hne
      have hsince := inTime_since hinTime hv hne
      have hlength : (1 : Time) ≤ v.remaining.length := by
        exact_mod_cast List.length_pos_iff.mpr hne
      have hone := mul_le_mul_of_nonneg_right hlength htime
      have hnow := of_decide_eq_true hread
      calc now ≤ _ := hnow
        _ ≤ v.since + (cfg.partnerDeadline + dbTime) := hsince
        _ ≤ v.claimedAt + dbTime + batchSize * (cfg.partnerDeadline + dbTime) := by linarith
        _ < v.claimedAt + cfg.policy.lease := by linarith
  | _ => exact hC

/-- With a lease that outlasts a whole batch, every claim comes in time. -/
theorem lease_outlasts_batch {x₀ : Fleet} {es : List (Time × FleetAction)} (h₀ : x₀.Initial)
    (htime : 0 ≤ cfg.partnerDeadline + dbTime)
    (hlease : dbTime + batchSize * (cfg.partnerDeadline + dbTime) < cfg.policy.lease)
    (hC : Runs.AllSteps (fleetStep cfg batchSize dbTime)
      (fun x e => undisturbed cfg dbTime x e = true) x₀ es)
    (h : Runs.run (fleetStep cfg batchSize dbTime) x₀ es = some x) {i j : Nat} {w v : Worker}
    {id : String} (hw : x.workers[i]? = some w) (hv : x.workers[j]? = some v)
    (hidw : id ∈ w.remaining) (hidv : id ∈ v.remaining) : i = j := by
  have hI : Sound x₀.timed.state.store.db x.timed.state.store.db ∧ RoundsLeased cfg x ∧
      RoundsPunctual cfg batchSize dbTime x := by
    refine Runs.run_invariant_of (I := fun x => Sound x₀.timed.state.store.db
      x.timed.state.store.db ∧ RoundsLeased cfg x ∧ RoundsPunctual cfg batchSize dbTime x)
      ?_ ⟨h₀.state.seeded.sound, h₀.leased, ?_⟩ hC h
    · rintro x ⟨moment, act⟩ x' ⟨hsound, hleased, hpunctual⟩ hCe hstep
      obtain ⟨hinTime, hmove⟩ := fleetStep_inv hstep
      have hinLease := hpunctual.inLease htime hlease hinTime hCe hmove
      exact ⟨hmove.sound h₀.state.seeded hsound,
        hleased.step h₀.state.seeded hsound hinLease hmove,
        hpunctual.step htime hinTime hCe hmove⟩
    · intro w hw
      rw [h₀.workers] at hw
      cases hw
  exact hI.2.1.apart i j w v id hw hv hidw hidv

end

/-! ## Two workers -/

def otherTransferId : String := "tr_00000000000000000000000002"

/-- Two requests record their submission and die. -/
def abandonedRequests : List Action :=
  admission 0 "user_alice" "key-1" sampleBody 5 ++
    [.request 0 (.debit 5 5 sampleTransferId), .request 0 (.submit 5), .request 0 .crash] ++
  admission 1 "user_alice" "key-2" otherBody 5 ++
    [.request 1 (.debit 5 5 otherTransferId), .request 1 (.submit 5), .request 1 .crash]

/-- When their transfers are due, two workers start. -/
def abandonedTransfers : List (Time × FleetAction) :=
  abandonedRequests.map (fun a => (5, .other a)) ++ [(70, .join), (70, .join)]

def freshFleet : Fleet := ⟨⟨0, freshState⟩, []⟩

theorem freshFleet_initial : freshFleet.Initial where
  state := freshState_initial
  workers := rfl

theorem two_rounds {workers : List Worker} {ids ids' : List String}
    (h : workers.map Worker.remaining = [ids, ids']) :
    ∃ w v, workers = [w, v] ∧ w.remaining = ids ∧ v.remaining = ids' := by
  obtain ⟨w, rest, rfl, hw, hrest⟩ := List.map_eq_cons_iff.mp h
  obtain ⟨v, rest', rfl, hv, hrest'⟩ := List.map_eq_cons_iff.mp hrest
  rw [List.map_eq_nil_iff.mp hrest']
  exact ⟨w, v, rfl, hw, hv⟩

/-- Each of them claims one. -/
def sharedRun : List (Time × FleetAction) :=
  abandonedTransfers ++ [(70, .worker 0 (.claim 70 [])), (71, .worker 1 (.claim 71 []))]

theorem rounds_apart_sharedRun :
    ∃ x w v, Runs.run (fleetStep sampleConfig 1 1) freshFleet sharedRun = some x ∧
      x.workers[0]? = some w ∧ x.workers[1]? = some v ∧ w.remaining = [sampleTransferId] ∧
      v.remaining = [otherTransferId] ∧ ∀ id ∈ w.remaining, id ∉ v.remaining := by
  have hany : (Runs.run (fleetStep sampleConfig 1 1) freshFleet sharedRun).any (fun x =>
      decide (x.workers.map Worker.remaining = [[sampleTransferId], [otherTransferId]])) =
      true := by
    decide +kernel
  obtain ⟨x, hx, hrounds⟩ := (Option.any_eq_true _ _).mp hany
  obtain ⟨w, v, hworkers, hwids, hvids⟩ := two_rounds (of_decide_eq_true hrounds)
  have hw : x.workers[0]? = some w := by rw [hworkers]; rfl
  have hv : x.workers[1]? = some v := by rw [hworkers]; rfl
  refine ⟨x, w, v, hx, hw, hv, hwids, hvids, fun id hidw hidv => ?_⟩
  have hsame := rounds_apart freshFleet_initial (by decide +kernel) hx hw hv hidw hidv
  cases hsame

/-- A lease longer than the partner deadline, and otherwise the defaults. -/
def shortLease : Settings := { reconciliationLeaseSeconds := 9 }

/-- The first worker claims both; the partner takes its eight seconds over the first
transfer, and a second later the other is claimed again. -/
def overtakenRun : List (Time × FleetAction) :=
  abandonedTransfers ++
    [(70, .worker 0 (.claim 70 [])), (70, .worker 0 .begin), (70, .worker 0 (.move .snapshot)),
      (70, .worker 0 (.move (.decide 70))),
      (78, .worker 0 (.move (.status ⟨.unknown, "timeout", true, none, none, 3⟩))),
      (79, .worker 0 (.move (.apply 79 79))), (79, .worker 1 (.claim 79 []))]

theorem claimed_twice :
    shortLease.Accepted ∧ ∃ x w v,
      Runs.run (fleetStep (shortLease.config sampleSha256) shortLease.reconcilerBatchSize.toNat 1)
        freshFleet overtakenRun = some x ∧
      x.workers[0]? = some w ∧ x.workers[1]? = some v ∧
      otherTransferId ∈ w.remaining ∧ otherTransferId ∈ v.remaining := by
  refine ⟨⟨by decide +kernel, by decide +kernel⟩, ?_⟩
  have hany : (Runs.run (fleetStep (shortLease.config sampleSha256)
      shortLease.reconcilerBatchSize.toNat 1) freshFleet overtakenRun).any (fun x =>
        decide (x.workers.map Worker.remaining = [[otherTransferId], [otherTransferId]])) =
      true := by
    decide +kernel
  obtain ⟨x, hx, hrounds⟩ := (Option.any_eq_true _ _).mp hany
  obtain ⟨w, v, hworkers, hwids, hvids⟩ := two_rounds (of_decide_eq_true hrounds)
  refine ⟨x, w, v, hx, by rw [hworkers]; rfl, by rw [hworkers]; rfl, ?_, ?_⟩
  · rw [hwids]
    exact List.mem_singleton_self _
  · rw [hvids]
    exact List.mem_singleton_self _

end LoyaltyTransfer
