/-
# `LoyaltyTransfer.Composition` — the service and its partner together

The engine, one session of the resilient adapter for each partner call, and the
simulator, with HTTP in between.  A session sends a POST or a GET for each of its
attempts and waits for that exchange: for its answer, for a transport error at
any moment, or for the deadline; the exchange goes on without it.

    engine        calling ─────────────────────────────────▶ answered
    session            entering ─▶ sending ─▶ … ─▶ returned
    exchange                          inTransit ─▶ … ─▶ answered
    simulator                                  credits

**Proved here.**  In every state the composition can reach, a COMPLETED transfer
has exactly one credit under its id at the partner of its destination, for its
points and its member, and carries that credit's confirmation id
(`completed_credited_once`).
-/
import LoyaltyTransfer.Ownership
import LoyaltyTransfer.Resilience
import LoyaltyTransfer.Simulator

namespace LoyaltyTransfer

open Transaction

/-! ## The system -/

/-- A call of the resilient adapter, and the exchange of its last attempt. -/
structure Session (ρ : Type) where
  breaker : CircuitBreaker
  call : Call ρ
  awaiting : Option Nat := none

/-- The sessions belong to the requests and to the reconciles of the engine. -/
structure World where
  engine : State
  sim : Simulator
  credits : Nat → Option (Session PartnerCreditResult)
  statuses : Nat → Option (Session PartnerStatusResult)

/-- `error` is a transport error in place of the awaited answer. -/
inductive WorldAction where
  | engine (a : Action)
  | partner (a : SimAction)
  | enterCredit (i : Nat) (now : Time) (breaker : CircuitBreaker)
  | creditEvent (i : Nat) (e : CallEvent PartnerCreditResult)
  | sendCredit (i : Nat) (gateAt checkedAt : Time)
  | receiveCredit (i : Nat) (error : Option TransportError) (m : Moments)
  | leaveCredit (i : Nat)
  | enterStatus (k : Nat) (now : Time) (breaker : CircuitBreaker)
  | statusEvent (k : Nat) (e : CallEvent PartnerStatusResult)
  | sendStatus (k : Nat) (gateAt checkedAt : Time)
  | receiveStatus (k : Nat) (error : Option TransportError) (m : Moments)
  | leaveStatus (k : Nat)

/-- The actions of the engine that do not wait for a partner call. -/
def Action.isInternal : Action → Bool
  | .request _ (.call _) | .request _ (.attempt _) | .request _ (.answer _)
  | .reconcile _ (.status _) => false
  | _ => true

/-- The actions of the simulator and of the network. -/
def SimAction.isServer : SimAction → Bool
  | .post _ | .get _ _ => false
  | _ => true

/-- The events of a call that no exchange takes part in. -/
def CallEvent.isLocal {ρ : Type} : CallEvent ρ → Bool
  | .send _ _ | .answer _ _ => false
  | _ => true

/-- The call of `credit_points` that a request noted. -/
def DebitedTransfer.creditRequest (d : DebitedTransfer) : CreditRequest where
  partnerCode := d.partnerCode
  reference := d.transferId
  memberId := d.memberId
  points := d.destinationPoints

/-- A transport error that says the request never left takes the exchange with
it. -/
def Simulator.abandon (s : Simulator) (error : TransportError) (a : SimAction) :
    Option Simulator :=
  if error.notSent then simStep s a else some s

/-- An event of the session's call. -/
def Session.next {ρ : Type} (op : Operation ρ) (adapter : ResilientPartnerAdapter)
    (session : Session ρ) (e : CallEvent ρ) : Option (Session ρ) :=
  (callStep op adapter (session.breaker, session.call) e).map fun x =>
    { session with breaker := x.1, call := x.2 }

section

variable (cfg : Config) (retry : RetryPolicy)

/-- The adapter with the deadline of the service. -/
def Config.adapter : ResilientPartnerAdapter := ⟨retry, cfg.partnerDeadline⟩

def World.setCredit (w : World) (i : Nat) (session : Session PartnerCreditResult) : World :=
  { w with credits := Function.update w.credits i (some session) }

def World.setStatus (w : World) (k : Nat) (session : Session PartnerStatusResult) : World :=
  { w with statuses := Function.update w.statuses k (some session) }

def worldStep (w : World) : WorldAction → Option World
  | .engine a => do
      if a.isInternal then
        let engine ← step cfg w.engine a
        pure { w with engine }
      else none
  | .partner a => do
      if a.isServer then
        let sim ← simStep w.sim a
        pure { w with sim }
      else none
  | .enterCredit i now breaker => do
      let engine ← step cfg w.engine (.request i (.call now))
      pure ({ w with engine }.setCredit i ⟨breaker, (cfg.adapter retry).start _ now, none⟩)
  | .creditEvent i e => do
      let session ← w.credits i
      if e.isLocal then
        let session ← session.next creditOperation (cfg.adapter retry) e
        pure (w.setCredit i session)
      else none
  | .sendCredit i gateAt checkedAt => do
      let session ← w.credits i
      let r ← w.engine.requests[i]?
      match r.pc with
      | .calling _ d _ =>
          let engine ← step cfg w.engine (.request i (.attempt checkedAt))
          let session ← session.next creditOperation (cfg.adapter retry) (.send gateAt checkedAt)
          let sim ← simStep w.sim (.post d.creditRequest)
          pure ({ w with engine, sim }.setCredit i
            { session with awaiting := some w.sim.posts.length })
      | _ => none
  | .receiveCredit i error m => do
      let session ← w.credits i
      let n ← session.awaiting
      let post ← w.sim.posts[n]?
      match error, post.pc with
      | none, .answered response =>
          let session ← session.next creditOperation (cfg.adapter retry)
            (.answer (HttpPartnerAdapter.creditPoints (.ok response)) m)
          pure (w.setCredit i session)
      | some e, _ =>
          let sim ← w.sim.abandon e (.drop n)
          let session ← session.next creditOperation (cfg.adapter retry)
            (.answer (HttpPartnerAdapter.creditPoints (.error e)) m)
          pure ({ w with sim }.setCredit i session)
      | _, _ => none
  | .leaveCredit i => do
      let session ← w.credits i
      match session.call.pc with
      | .returned result =>
          let engine ← step cfg w.engine (.request i (.answer result))
          pure { w with engine }
      | _ => none
  | .enterStatus k now breaker =>
      match w.engine.reconciles[k]?, w.statuses k with
      | some ⟨_, .asking _⟩, none =>
          some (w.setStatus k ⟨breaker, (cfg.adapter retry).start _ now, none⟩)
      | _, _ => none
  | .statusEvent k e => do
      let session ← w.statuses k
      if e.isLocal then
        let session ← session.next statusOperation (cfg.adapter retry) e
        pure (w.setStatus k session)
      else none
  | .sendStatus k gateAt checkedAt => do
      let session ← w.statuses k
      let p ← w.engine.reconciles[k]?
      match p.pc with
      | .asking snap =>
          let session ← session.next statusOperation (cfg.adapter retry) (.send gateAt checkedAt)
          let sim ← simStep w.sim (.get snap.partnerCode snap.reference)
          pure ({ w with sim }.setStatus k { session with awaiting := some w.sim.gets.length })
      | _ => none
  | .receiveStatus k error m => do
      let session ← w.statuses k
      let n ← session.awaiting
      let g ← w.sim.gets[n]?
      match error, g.pc with
      | none, .answered response =>
          let session ← session.next statusOperation (cfg.adapter retry)
            (.answer (HttpPartnerAdapter.getCreditStatus (.ok response)) m)
          pure (w.setStatus k session)
      | some e, _ =>
          let sim ← w.sim.abandon e (.dropGet n)
          let session ← session.next statusOperation (cfg.adapter retry)
            (.answer (HttpPartnerAdapter.getCreditStatus (.error e)) m)
          pure ({ w with sim }.setStatus k session)
      | _, _ => none
  | .leaveStatus k => do
      let session ← w.statuses k
      match session.call.pc with
      | .returned answer =>
          let engine ← step cfg w.engine (.reconcile k (.status answer))
          pure { w with engine }
      | _ => none

end

/-- The deployment before its first request: no credit at the partner and no
exchange under way; the partners may be in any mode. -/
structure World.Initial (w : World) : Prop where
  engine : LoyaltyTransfer.Initial w.engine
  noCredits : w.sim.credits = []
  noPosts : w.sim.posts = []
  noGets : w.sim.gets = []
  creditSessions : ∀ i, w.credits i = none
  statusSessions : ∀ k, w.statuses k = none

/-! ## What an answer rests on -/

/-- The partner has the credit, under this confirmation id. -/
def Confirmed (sim : Simulator) (partnerCode reference confirmationId : String) : Prop :=
  ∃ c ∈ sim.credits, c.key = (partnerCode, reference) ∧ c.confirmationId = confirmationId

def CreditBacked (sim : Simulator) (partnerCode reference : String) (r : PartnerCreditResult) :
    Prop :=
  ∀ confirmationId, r.outcome = .success → nonempty r.confirmationId = some confirmationId →
    Confirmed sim partnerCode reference confirmationId

def StatusBacked (sim : Simulator) (partnerCode reference : String) (r : PartnerStatusResult) :
    Prop :=
  ∀ confirmationId, r.status = .completed → nonempty r.confirmationId = some confirmationId →
    Confirmed sim partnerCode reference confirmationId

section

variable {sim sim' : Simulator} {partnerCode reference : String}

theorem nonempty_idem (s : Option String) : nonempty (nonempty s) = nonempty s := by
  cases s with
  | none => rfl
  | some x => by_cases h : x = "" <;> simp [nonempty, h]

theorem nonempty_getD (x : String) : (nonempty (some x)).getD x = x := by
  by_cases h : x = "" <;> simp [nonempty, Option.filter, h]

theorem some_of_nonempty {s : Option String} {x : String} (h : nonempty s = some x) :
    s = some x := by
  cases s with
  | none => cases h
  | some y =>
      have hyx : y = x ∧ ¬ x = "" := by simpa [nonempty] using h
      rw [hyx.1]

theorem Credit.response_confirmationId (c : Credit) (statusCode : Nat) :
    (c.response statusCode).confirmationId = nonempty (some c.confirmationId) := rfl

/-- A confirmation id read from a success is the one of the credit on record. -/
theorem Shows.confirmed {response : HttpResponse}
    (h : Shows sim.credits partnerCode reference response)
    (hcode : response.statusCode = 200 ∨ response.statusCode = 201) {confirmationId : String}
    (hconf : nonempty response.confirmationId = some confirmationId) :
    Confirmed sim partnerCode reference confirmationId := by
  obtain ⟨c, hc, hkey, hresp⟩ := h hcode
  refine ⟨c, hc, hkey, ?_⟩
  rw [hresp, Credit.response_confirmationId, nonempty_idem] at hconf
  exact Option.some.inj (some_of_nonempty hconf)

theorem creditBacked_response {response : HttpResponse}
    (h : Shows sim.credits partnerCode reference response) :
    CreditBacked sim partnerCode reference (HttpPartnerAdapter.creditPoints (.ok response)) := by
  intro confirmationId hsuccess hconf
  obtain ⟨r, hr, hcode, hid⟩ := creditPoints_success hsuccess
  cases hr
  rw [← hid] at hconf
  exact h.confirmed hcode hconf

theorem creditBacked_error (e : TransportError) :
    CreditBacked sim partnerCode reference (HttpPartnerAdapter.creditPoints (.error e)) := by
  intro confirmationId hsuccess
  obtain ⟨r, hr, -⟩ := creditPoints_success hsuccess
  cases hr

theorem statusBacked_response {response : HttpResponse}
    (h : Shows sim.credits partnerCode reference response) :
    StatusBacked sim partnerCode reference
      (HttpPartnerAdapter.getCreditStatus (.ok response)) := by
  intro confirmationId hcompleted hconf
  obtain ⟨r, hr, hcode, hid⟩ := getCreditStatus_completed hcompleted
  cases hr
  rw [← hid] at hconf
  exact h.confirmed (.inl hcode) hconf

theorem statusBacked_error (e : TransportError) :
    StatusBacked sim partnerCode reference (HttpPartnerAdapter.getCreditStatus (.error e)) := by
  intro confirmationId hcompleted
  obtain ⟨r, hr, -⟩ := getCreditStatus_completed hcompleted
  cases hr

/-- Only a success needs a credit behind it. -/
theorem creditBacked_of_ne {r : PartnerCreditResult} (h : r.outcome ≠ .success) :
    CreditBacked sim partnerCode reference r :=
  fun _ hsuccess => absurd hsuccess h

theorem statusBacked_of_ne {r : PartnerStatusResult} (h : r.status ≠ .completed) :
    StatusBacked sim partnerCode reference r :=
  fun _ hcompleted => absurd hcompleted h

/-- The resilient adapter adds no success of its own. -/
theorem creditOperation_keeps :
    creditOperation.Keeps (CreditBacked sim partnerCode reference) where
  circuitOpen := creditBacked_of_ne (by decide)
  tooLate := creditBacked_of_ne (by decide)
  cutOff := creditBacked_of_ne (by decide)
  conclude := by
    intro b r hr
    simp only [creditOperation]
    split
    · exact creditBacked_of_ne (by simp)
    · exact hr
  withAttempts := fun _ _ hr => hr

theorem statusOperation_keeps :
    statusOperation.Keeps (StatusBacked sim partnerCode reference) where
  circuitOpen := statusBacked_of_ne (by decide)
  tooLate := statusBacked_of_ne (by decide)
  cutOff := statusBacked_of_ne (by decide)
  conclude := fun _ _ hr => hr
  withAttempts := fun _ _ hr => hr

theorem Confirmed.mono {confirmationId : String}
    (h : Confirmed sim partnerCode reference confirmationId)
    (hsub : ∀ c ∈ sim.credits, c ∈ sim'.credits) :
    Confirmed sim' partnerCode reference confirmationId := by
  obtain ⟨c, hc, hkey, hid⟩ := h
  exact ⟨c, hsub c hc, hkey, hid⟩

theorem CreditBacked.mono {r : PartnerCreditResult}
    (h : CreditBacked sim partnerCode reference r)
    (hsub : ∀ c ∈ sim.credits, c ∈ sim'.credits) : CreditBacked sim' partnerCode reference r :=
  fun confirmationId hs hc => (h confirmationId hs hc).mono hsub

theorem StatusBacked.mono {r : PartnerStatusResult}
    (h : StatusBacked sim partnerCode reference r)
    (hsub : ∀ c ∈ sim.credits, c ∈ sim'.credits) : StatusBacked sim' partnerCode reference r :=
  fun confirmationId hs hc => (h confirmationId hs hc).mono hsub

end

/-! ## The invariant -/

/-- The POST asks for what the transfer says. -/
structure Ordered (db₀ : Database) (t : Transfer) (r : CreditRequest) : Prop where
  partner : ∃ p, db₀.program? t.destinationProgramId = some p ∧ p.partnerCode = r.partnerCode
  member : ∃ a ∈ db₀.accounts, a.id = t.destinationAccountId ∧ a.externalMemberId = some r.memberId
  points : t.destinationPoints = r.points

/-- What the session of a credit call has from the partner. -/
structure CreditLinked (sim : Simulator) (d : DebitedTransfer)
    (session : Session PartnerCreditResult) : Prop where
  results : session.call.Holds (CreditBacked sim d.partnerCode d.transferId)
  awaiting : ∀ n, session.awaiting = some n →
    ∃ post, sim.posts[n]? = some post ∧ post.request = d.creditRequest

/-- What the session of a status call has from the partner. -/
structure StatusLinked (sim : Simulator) (snap : Snapshot)
    (session : Session PartnerStatusResult) : Prop where
  results : session.call.Holds (StatusBacked sim snap.partnerCode snap.reference)
  awaiting : ∀ n, session.awaiting = some n → ∃ g, sim.gets[n]? = some g ∧
    g.partnerCode = snap.partnerCode ∧ g.reference = snap.reference

/-- The reconcile has not reached its partner call. -/
def ReconcilePc.early : ReconcilePc → Bool
  | .started | .snapshotted _ => true
  | _ => false

/-- The transfer and its partner's code. -/
def AtPartner (db₀ db : Database) (transferId partnerCode : String) : Prop :=
  ∃ t p, db.transfer? transferId = some t ∧ db₀.program? t.destinationProgramId = some p ∧
    p.partnerCode = partnerCode

structure Honest (db₀ : Database) (w : World) : Prop where
  sim : w.sim.Sound
  posts : ∀ post ∈ w.sim.posts, ∃ t,
    w.engine.store.db.transfer? post.request.reference = some t ∧ Ordered db₀ t post.request
  credits : ∀ (i : Nat) r record d startedAt session, w.engine.requests[i]? = some r →
    r.pc = .calling record d startedAt → w.credits i = some session → CreditLinked w.sim d session
  answered : ∀ (i : Nat) r record d result, w.engine.requests[i]? = some r →
    r.pc = .answered record d result → CreditBacked w.sim d.partnerCode d.transferId result
  statuses : ∀ (k : Nat) p snap session, w.engine.reconciles[k]? = some p →
    p.pc = .asking snap → w.statuses k = some session → StatusLinked w.sim snap session
  unasked : ∀ k : Nat, (∀ p, w.engine.reconciles[k]? = some p → p.pc.early = true) →
    w.statuses k = none
  snapshots : ∀ (k : Nat) p snap, w.engine.reconciles[k]? = some p →
    p.pc = .snapshotted snap ∨ p.pc = .asking snap → snap.reference = p.transferId ∧
      AtPartner db₀ w.engine.store.db p.transferId snap.partnerCode
  resolving : ∀ (k : Nat) p answer, w.engine.reconciles[k]? = some p →
    p.pc = .resolving answer → ∃ partnerCode,
      AtPartner db₀ w.engine.store.db p.transferId partnerCode ∧
      StatusBacked w.sim partnerCode p.transferId answer
  completed : ∀ t ∈ w.engine.store.db.transfers, t.status = .completed →
    ∃ p confirmationId, db₀.program? t.destinationProgramId = some p ∧
      t.partnerConfirmationId = some confirmationId ∧
      Confirmed w.sim p.partnerCode t.id confirmationId

/-! ## Steps of the engine -/

section

variable {cfg : Config} {db₀ : Database}

/-- A call that has been answered was, or is being, answered. -/
theorem RequestMove.answered {st st' : Store} {r : Request} {i : Nat} {act : RequestAction}
    {pc : RequestPc} (hm : RequestMove cfg i r st act st' pc) {record : Nat}
    {d : DebitedTransfer} {result : PartnerCreditResult} (hpc : pc = .answered record d result) :
    act = .answer result ∧ ∃ startedAt, r.pc = .calling record d startedAt := by
  have hidle : pc.idle = true → False := fun h => by rw [hpc] at h; cases h
  cases hm with
  | answer hcalling =>
      cases hpc
      exact ⟨rfl, _, hcalling⟩
  | attempt hcalling => rw [hcalling] at hpc; cases hpc
  | statement => exact (hidle (beginPc_idle _)).elim
  | debitRaised => exact (hidle (handlerRaised_idle _ _)).elim
  | findRaised => exact (hidle (handlerRaised_idle _ _)).elim
  | submitRaised => exact (hidle (handlerRaised_idle _ _)).elim
  | recordRaised => exact (hidle (handlerRaised_idle _ _)).elim
  | details => exact (hidle (detailsPc_idle _ _ _ _)).elim
  | fault h => exact (hidle (faulted_idle h)).elim
  | _ => cases hpc

theorem decidePc_asking {now : Time} {snap snap' : Snapshot}
    (h : decidePc cfg now snap = .asking snap') : snap = snap' := by
  simp only [decidePc] at h
  split at h
  · cases h
  · cases h
  · cases h
    rfl
  · cases h

/-- A reconcile that asks has just decided to. -/
theorem ReconcileMove.asking {p : Reconcile} {st st' : Store} {act : ReconcileAction}
    {pc : ReconcilePc} (hm : ReconcileMove cfg p st act st' pc) {snap : Snapshot}
    (hpc : pc = .asking snap) : p.pc = .snapshotted snap := by
  cases hm with
  | decided hsnap =>
      rw [decidePc_asking hpc] at hsnap
      exact hsnap
  | _ => cases hpc

/-- A reconcile with an answer has just got it. -/
theorem ReconcileMove.resolving {p : Reconcile} {st st' : Store} {act : ReconcileAction}
    {pc : ReconcilePc} (hm : ReconcileMove cfg p st act st' pc) {answer : PartnerStatusResult}
    (hpc : pc = .resolving answer) : act = .status answer ∧ ∃ snap, p.pc = .asking snap := by
  cases hm with
  | status hasking =>
      cases hpc
      exact ⟨rfl, _, hasking⟩
  | decided =>
      simp only [decidePc] at hpc
      split at hpc <;> cases hpc
  | _ => cases hpc

/-- A reconcile that is early was early or has just started. -/
theorem ReconcileMove.early {p : Reconcile} {st st' : Store} {act : ReconcileAction}
    {pc : ReconcilePc} (hm : ReconcileMove cfg p st act st' pc) (hpc : pc.early = true) :
    p.pc.early = true := by
  cases hm with
  | snapshotted hstarted => rw [hstarted]; rfl
  | decided =>
      simp only [decidePc] at hpc
      split at hpc <;> cases hpc
  | _ => cases hpc

/-- Every reconcile is still there, and was early if it is. -/
theorem Step.reconcile_early {s s' : State} {a : Action} (h : Step cfg s a s') {k : Nat}
    {p : Reconcile} (hp : s.reconciles[k]? = some p) :
    ∃ p', s'.reconciles[k]? = some p' ∧ (p'.pc.early = true → p.pc.early = true) := by
  have hlt := (List.getElem?_eq_some_iff.mp hp).1
  cases h with
  | startReconcile => exact ⟨p, by rw [List.getElem?_append_left hlt]; exact hp, id⟩
  | @reconcile j q act st pc hq hm =>
      by_cases hjk : j = k
      · subst hjk
        rw [hp] at hq
        cases hq
        exact ⟨{ p with pc }, List.getElem?_set_self hlt, hm.early⟩
      · exact ⟨p, by rw [List.getElem?_set_ne hjk]; exact hp, id⟩
  | _ => exact ⟨p, hp, id⟩

theorem Advance.completed {c : Cause} {t t' : Transfer} (h : Advance c t t')
    (hs : t'.status = .completed) :
    (t.status = .completed ∧ t'.partnerConfirmationId = t.partnerConfirmationId) ∨
      ∃ confirmationId, c.settles t.id confirmationId ∧
        t'.partnerConfirmationId = some confirmationId := by
  cases h with
  | stay hs' _ hc => exact .inl ⟨hs'.symm.trans hs, hc⟩
  | submitted => cases hs
  | parked _ hs' => rw [hs] at hs'; rcases hs' with hs' | hs' <;> cases hs'
  | settled _ hset => exact .inr ⟨_, hset, rfl⟩
  | reversed => cases hs

theorem Ordered.sameTerms {t t' : Transfer} {r : CreditRequest} (h : Ordered db₀ t r)
    (hterms : SameTerms t t') : Ordered db₀ t' r where
  partner := by rw [hterms.destinationProgramId]; exact h.partner
  member := by rw [hterms.destinationAccountId]; exact h.member
  points := hterms.destinationPoints.trans h.points

theorem AtPartner.change {c : Cause} {db db' : Database} {transferId partnerCode : String}
    (h : AtPartner db₀ db transferId partnerCode) (hc : Change c db db') :
    AtPartner db₀ db' transferId partnerCode := by
  obtain ⟨t, p, ht, hp, hcode⟩ := h
  obtain ⟨t', ht', hterms, -⟩ := hc.advance ht
  exact ⟨t', p, ht', by rw [hterms.destinationProgramId]; exact hp, hcode⟩

variable {w : World} {s' : State} {a : Action}

theorem Honest.snapshots_step (hsound : Sound db₀ w.engine.store.db) (h : Honest db₀ w)
    (hchange : Change (w.engine.cause cfg a) w.engine.store.db s'.store.db)
    (hstep : Step cfg w.engine a s') {k : Nat} {p' : Reconcile} {snap : Snapshot}
    (hp' : s'.reconciles[k]? = some p')
    (hpc' : p'.pc = .snapshotted snap ∨ p'.pc = .asking snap) :
    snap.reference = p'.transferId ∧
      AtPartner db₀ s'.store.db p'.transferId snap.partnerCode := by
  have hkeep : ∀ p, w.engine.reconciles[k]? = some p →
      p.pc = .snapshotted snap ∨ p.pc = .asking snap → snap.reference = p.transferId ∧
        AtPartner db₀ s'.store.db p.transferId snap.partnerCode := by
    intro p hp hpc
    obtain ⟨href, hat⟩ := h.snapshots k p snap hp hpc
    exact ⟨href, hat.change hchange⟩
  rcases hstep.reconcileStory hp' with hp | hstarted | @⟨p, _, _, -, hp, hm, rfl⟩
  · exact hkeep p' hp hpc'
  · rw [hstarted] at hpc'
    rcases hpc' with hpc' | hpc' <;> cases hpc'
  · rcases hpc' with hpc' | hpc'
    · generalize s'.store = st at hm hkeep hchange ⊢
      cases hm with
      | snapshotted hstarted hrun =>
          cases hpc'
          obtain ⟨rfl, t, program, ht, hprogram, rfl⟩ := snapshot_ok hrun
          have hid : t.id = p.transferId := Table.lookup_key ht
          rw [Database.program?, hsound.programs] at hprogram
          refine ⟨?_, t, program, ht, hprogram, rfl⟩
          -- the reference is the transfer's id, whether or not it is empty
          rw [(hsound.rows t (Table.lookup_mem ht)).reference, hid]
          exact nonempty_getD _
      | decided =>
          simp only [decidePc] at hpc'
          split at hpc' <;> cases hpc'
      | _ => cases hpc'
    · exact hkeep p hp (.inl (hm.asking hpc'))

theorem Honest.completed_step (hs : Seeded db₀) (hsound : Sound db₀ w.engine.store.db)
    (howned : Owned db₀ w.engine) (h : Honest db₀ w)
    (hchange : Change (w.engine.cause cfg a) w.engine.store.db s'.store.db) {t' : Transfer}
    (ht' : t' ∈ s'.store.db.transfers) (hst' : t'.status = .completed) :
    ∃ p confirmationId, db₀.program? t'.destinationProgramId = some p ∧
      t'.partnerConfirmationId = some confirmationId ∧
      Confirmed w.sim p.partnerCode t'.id confirmationId := by
  have hsound' := hsound.change hs hchange
  by_cases hold : ∃ t ∈ w.engine.store.db.transfers, t.id = t'.id
  · obtain ⟨t, ht, hid⟩ := hold
    have hlookup := Table.lookup_of_mem hsound.transferIds ht
    obtain ⟨y, hy, hterms, hadv⟩ := hchange.advance hlookup
    obtain rfl : y = t' := Table.eq_of_key_eq hsound'.transferIds (Table.lookup_mem hy) ht'
      ((Table.lookup_key hy).trans hid)
    rw [hterms.destinationProgramId, hterms.id]
    rcases hadv.completed hst' with ⟨hst, hconf⟩ | ⟨confirmationId, hsettles, hconf⟩
    · rw [hconf]
      exact h.completed t ht hst
    · rcases hsettles with ⟨i, _, _, r, record, d, result, -, hr, hpc, hd, hsuccess, hresult⟩ |
        ⟨k, _, _, p, answer, -, hp, hpc, hd, hcompleted, hresult⟩
      · -- the answer to the request's own call
        have hpcs := howned.pcs i r hr
        rw [hpc] at hpcs
        obtain ⟨-, x, hx, hopen, -⟩ := hpcs
        rw [hd] at hx
        obtain rfl : x = t := Option.some.inj (hx.symm.trans hlookup)
        obtain ⟨program, hprogram, hcode⟩ := hopen.partner
        refine ⟨program, confirmationId, hprogram, hconf, ?_⟩
        rw [hcode, ← hd]
        exact h.answered i r record d result hr hpc confirmationId hsuccess hresult
      · -- the answer to a status check
        obtain ⟨partnerCode, ⟨x, program, hx, hprogram, hcode⟩, hbacked⟩ :=
          h.resolving k p answer hp hpc
        rw [hd] at hx hbacked
        obtain rfl : x = t := Option.some.inj (hx.symm.trans hlookup)
        refine ⟨program, confirmationId, hprogram, hconf, ?_⟩
        rw [hcode]
        exact hbacked confirmationId hcompleted hresult
  · have hnew : ∀ y ∈ w.engine.store.db.transfers, y.id ≠ t'.id := fun y hy heq =>
      hold ⟨y, hy, heq⟩
    obtain ⟨-, _, _, _, hopening⟩ := hchange.opened_of_new ht' hnew
    rw [hopening.status] at hst'
    cases hst'

/-- A step of the engine keeps the invariant when a call starts with a fresh
session and ends with an answer the partner backs. -/
theorem Honest.engine (hs : Seeded db₀) (hsound : Sound db₀ w.engine.store.db)
    (howned : Owned db₀ w.engine) (h : Honest db₀ w) (hstep : Step cfg w.engine a s')
    (hcall : ∀ i now session, a = .request i (.call now) → w.credits i = some session →
      ∀ d, CreditLinked w.sim d session)
    (hanswer : ∀ i result r record d startedAt, a = .request i (.answer result) →
      w.engine.requests[i]? = some r → r.pc = .calling record d startedAt →
      CreditBacked w.sim d.partnerCode d.transferId result)
    (hstatus : ∀ k answer p snap, a = .reconcile k (.status answer) →
      w.engine.reconciles[k]? = some p → p.pc = .asking snap →
      StatusBacked w.sim snap.partnerCode snap.reference answer) :
    Honest db₀ { w with engine := s' } := by
  have hchange := hstep.change (hsound.accountIds hs)
  refine ⟨h.sim, ?_, ?_, ?_, ?_, ?_, ?_, ?_, ?_⟩
  · intro post hpost
    obtain ⟨t, ht, hordered⟩ := h.posts post hpost
    obtain ⟨t', ht', hterms, -⟩ := hchange.advance ht
    exact ⟨t', ht', hordered.sameTerms hterms⟩
  · intro i r' record d startedAt session hr' hpc' hsession
    rcases hstep.story hr' with ⟨hr, -⟩ | ⟨-, -, rfl⟩ | ⟨rfl, hr, hm, rfl⟩
    · exact h.credits i r' record d startedAt session hr hpc' hsession
    · cases hpc'
    · rcases (hm.calling hpc').2 with hcalling | ⟨rfl, -⟩
      · exact h.credits i _ record d startedAt session hr hcalling hsession
      · exact hcall i startedAt session rfl hsession d
  · intro i r' record d result hr' hpc'
    rcases hstep.story hr' with ⟨hr, -⟩ | ⟨-, -, rfl⟩ | ⟨rfl, hr, hm, rfl⟩
    · exact h.answered i r' record d result hr hpc'
    · cases hpc'
    · obtain ⟨rfl, startedAt, hcalling⟩ := hm.answered hpc'
      exact hanswer i result _ record d startedAt rfl hr hcalling
  · intro k p' snap session hp' hpc' hsession
    rcases hstep.reconcileStory hp' with hp | hstarted | @⟨p, _, _, -, hp, hm, rfl⟩
    · exact h.statuses k p' snap session hp hpc' hsession
    · rw [hstarted] at hpc'
      cases hpc'
    · -- it has just reached its call: no session yet
      have hnone := h.unasked k fun q hq => by
        rw [hp] at hq
        cases hq
        rw [hm.asking hpc']
        rfl
      rw [hnone] at hsession
      cases hsession
  · intro k hearly
    refine h.unasked k ?_
    intro p hp
    obtain ⟨p', hp', hpc⟩ := hstep.reconcile_early hp
    exact hpc (hearly p' hp')
  · intro k p' snap hp' hpc'
    exact h.snapshots_step hsound hchange hstep hp' hpc'
  · intro k p' answer hp' hpc'
    rcases hstep.reconcileStory hp' with hp | hstarted | @⟨p, _, _, rfl, hp, hm, rfl⟩
    · obtain ⟨partnerCode, hat, hbacked⟩ := h.resolving k p' answer hp hpc'
      exact ⟨partnerCode, hat.change hchange, hbacked⟩
    · rw [hstarted] at hpc'
      cases hpc'
    · obtain ⟨rfl, snap, hasking⟩ := hm.resolving hpc'
      obtain ⟨href, hat⟩ := h.snapshots k p snap hp (.inr hasking)
      refine ⟨snap.partnerCode, hat.change hchange, ?_⟩
      have hbacked := hstatus k answer p snap rfl hp hasking
      rw [href] at hbacked
      exact hbacked
  · intro t' ht' hst'
    exact h.completed_step hs hsound howned hchange ht' hst'

end

/-! ## Steps of the simulator and of the sessions -/

section

variable {db₀ : Database} {w : World} {sim sim' : Simulator} {a : SimAction}

theorem CreditLinked.simMove {d : DebitedTransfer} {session : Session PartnerCreditResult}
    (h : CreditLinked sim d session) (hm : SimMove sim a sim') : CreditLinked sim' d session where
  results := h.results.mono fun _ hr => hr.mono hm.credits_subset
  awaiting := by
    intro n hn
    obtain ⟨post, hpost, hreq⟩ := h.awaiting n hn
    obtain ⟨post', hpost', hreq'⟩ := hm.post_persists hpost
    exact ⟨post', hpost', hreq'.trans hreq⟩

theorem StatusLinked.simMove {snap : Snapshot} {session : Session PartnerStatusResult}
    (h : StatusLinked sim snap session) (hm : SimMove sim a sim') :
    StatusLinked sim' snap session where
  results := h.results.mono fun _ hr => hr.mono hm.credits_subset
  awaiting := by
    intro n hn
    obtain ⟨g, hg, hcode, href⟩ := h.awaiting n hn
    obtain ⟨g', hg', hcode', href'⟩ := hm.get_persists hg
    exact ⟨g', hg', hcode'.trans hcode, href'.trans href⟩

/-- A step of the simulator keeps the invariant when a new POST asks for what its
transfer says. -/
theorem Honest.partner (h : Honest db₀ w) (hm : SimMove w.sim a sim')
    (hpost : ∀ r, a = .post r → ∃ t,
      w.engine.store.db.transfer? r.reference = some t ∧ Ordered db₀ t r) :
    Honest db₀ { w with sim := sim' } where
  sim := h.sim.step hm
  posts := by
    intro post hp
    rcases hm.post_cases hp with ⟨post₀, hpost₀, hreq⟩ | rfl
    · rw [← hreq]
      exact h.posts post₀ hpost₀
    · exact hpost _ rfl
  credits := fun i r record d startedAt session hr hpc hsession =>
    (h.credits i r record d startedAt session hr hpc hsession).simMove hm
  answered := fun i r record d result hr hpc =>
    (h.answered i r record d result hr hpc).mono hm.credits_subset
  statuses := fun k p snap session hp hpc hsession =>
    (h.statuses k p snap session hp hpc hsession).simMove hm
  unasked := h.unasked
  snapshots := h.snapshots
  resolving := by
    intro k p answer hp hpc
    obtain ⟨partnerCode, hat, hbacked⟩ := h.resolving k p answer hp hpc
    exact ⟨partnerCode, hat, hbacked.mono hm.credits_subset⟩
  completed := by
    intro t ht hst
    obtain ⟨p, confirmationId, hp, hconf, hcredit⟩ := h.completed t ht hst
    exact ⟨p, confirmationId, hp, hconf, hcredit.mono hm.credits_subset⟩

theorem Honest.setCredit (h : Honest db₀ w) {i : Nat} {session : Session PartnerCreditResult}
    (hlinked : ∀ r record d startedAt, w.engine.requests[i]? = some r →
      r.pc = .calling record d startedAt → CreditLinked w.sim d session) :
    Honest db₀ (w.setCredit i session) := by
  refine { h with credits := ?_ }
  intro j r record d startedAt session' hr hpc hsession
  have hsession : Function.update w.credits i (some session) j = some session' := hsession
  by_cases hij : j = i
  · subst hij
    rw [Function.update_self] at hsession
    cases hsession
    exact hlinked r record d startedAt hr hpc
  · rw [Function.update_of_ne hij] at hsession
    exact h.credits j r record d startedAt session' hr hpc hsession

theorem Honest.setStatus (h : Honest db₀ w) {k : Nat} {session : Session PartnerStatusResult}
    (hasked : ∃ p, w.engine.reconciles[k]? = some p ∧ p.pc.early = false)
    (hlinked : ∀ p snap, w.engine.reconciles[k]? = some p → p.pc = .asking snap →
      StatusLinked w.sim snap session) :
    Honest db₀ (w.setStatus k session) := by
  refine { h with statuses := ?_, unasked := ?_ }
  · intro j p snap session' hp hpc hsession
    have hsession : Function.update w.statuses k (some session) j = some session' := hsession
    by_cases hjk : j = k
    · subst hjk
      rw [Function.update_self] at hsession
      cases hsession
      exact hlinked p snap hp hpc
    · rw [Function.update_of_ne hjk] at hsession
      exact h.statuses j p snap session' hp hpc hsession
  · intro j hearly
    by_cases hjk : j = k
    · subst hjk
      obtain ⟨p, hp, hpc⟩ := hasked
      have := hearly p hp
      rw [hpc] at this
      cases this
    · show Function.update w.statuses k (some session) j = none
      rw [Function.update_of_ne hjk]
      exact h.unasked j hearly

/-- A reconcile with a session has reached its call. -/
theorem Honest.asked (h : Honest db₀ w) {k : Nat} {session : Session PartnerStatusResult}
    (hsession : w.statuses k = some session) :
    ∃ p, w.engine.reconciles[k]? = some p ∧ p.pc.early = false := by
  by_contra hno
  have hnone := h.unasked k ?_
  · rw [hnone] at hsession
    cases hsession
  · intro p hp
    cases hearly : p.pc.early with
    | true => rfl
    | false => exact absurd ⟨p, hp, hearly⟩ hno

theorem Session.next_some {ρ : Type} {op : Operation ρ} {adapter : ResilientPartnerAdapter}
    {session session' : Session ρ} {e : CallEvent ρ}
    (h : session.next op adapter e = some session') :
    CallMove op adapter session.breaker session.call e session'.breaker session'.call ∧
      session'.awaiting = session.awaiting := by
  obtain ⟨⟨b, c⟩, hstep, rfl⟩ := Option.map_eq_some_iff.mp h
  exact ⟨callStep_move hstep, rfl⟩

theorem CreditLinked.next {adapter : ResilientPartnerAdapter} {d : DebitedTransfer}
    {session session' : Session PartnerCreditResult} {e : CallEvent PartnerCreditResult}
    (h : CreditLinked sim d session)
    (hnext : session.next creditOperation adapter e = some session')
    (hanswer : ∀ r m, e = .answer r m → CreditBacked sim d.partnerCode d.transferId r) :
    CreditLinked sim d session' := by
  obtain ⟨hm, hawait⟩ := Session.next_some hnext
  refine ⟨hm.holds creditOperation_keeps hanswer h.results, ?_⟩
  rw [hawait]
  exact h.awaiting

theorem StatusLinked.next {adapter : ResilientPartnerAdapter} {snap : Snapshot}
    {session session' : Session PartnerStatusResult} {e : CallEvent PartnerStatusResult}
    (h : StatusLinked sim snap session)
    (hnext : session.next statusOperation adapter e = some session')
    (hanswer : ∀ r m, e = .answer r m → StatusBacked sim snap.partnerCode snap.reference r) :
    StatusLinked sim snap session' := by
  obtain ⟨hm, hawait⟩ := Session.next_some hnext
  refine ⟨hm.holds statusOperation_keeps hanswer h.results, ?_⟩
  rw [hawait]
  exact h.awaiting

theorem Simulator.abandon_move {e : TransportError} (h : sim.abandon e a = some sim') :
    sim' = sim ∨ SimMove sim a sim' := by
  simp only [Simulator.abandon] at h
  split at h
  · exact .inr (simStep_move h)
  · cases h
    exact .inl rfl

theorem Honest.abandon (h : Honest db₀ w) {e : TransportError}
    (ha : w.sim.abandon e a = some sim') (hserver : ∀ r, a ≠ .post r) :
    Honest db₀ { w with sim := sim' } := by
  rcases Simulator.abandon_move ha with rfl | hm
  · exact h
  · exact h.partner hm fun r hr => absurd hr (hserver r)

end

/-! ## Steps of the composition -/

/-- A step of the composition, inverted. -/
inductive WorldMove (cfg : Config) (retry : RetryPolicy) (w : World) : World → Prop
  | engine {a : Action} {s' : State} (ha : a.isInternal = true) (h : Step cfg w.engine a s') :
      WorldMove cfg retry w { w with engine := s' }
  | partner {a : SimAction} {sim' : Simulator} (ha : a.isServer = true)
      (h : SimMove w.sim a sim') : WorldMove cfg retry w { w with sim := sim' }
  | enterCredit {i : Nat} {now : Time} {breaker : CircuitBreaker} {s' : State}
      (h : Step cfg w.engine (.request i (.call now)) s') :
      WorldMove cfg retry w
        ({ w with engine := s' }.setCredit i ⟨breaker, (cfg.adapter retry).start _ now, none⟩)
  | creditEvent {i : Nat} {e : CallEvent PartnerCreditResult}
      {session session' : Session PartnerCreditResult} (hsession : w.credits i = some session)
      (he : e.isLocal = true)
      (hnext : session.next creditOperation (cfg.adapter retry) e = some session') :
      WorldMove cfg retry w (w.setCredit i session')
  | sendCredit {i : Nat} {gateAt checkedAt : Time} {session session' : Session PartnerCreditResult}
      {r : Request} {record : Nat} {d : DebitedTransfer} {startedAt : Time} {s' : State}
      {sim' : Simulator} (hsession : w.credits i = some session)
      (hr : w.engine.requests[i]? = some r) (hpc : r.pc = .calling record d startedAt)
      (h : Step cfg w.engine (.request i (.attempt checkedAt)) s')
      (hnext : session.next creditOperation (cfg.adapter retry) (.send gateAt checkedAt) =
        some session')
      (hpost : simStep w.sim (.post d.creditRequest) = some sim') :
      WorldMove cfg retry w ({ w with engine := s', sim := sim' }.setCredit i
        { session' with awaiting := some w.sim.posts.length })
  | receiveCredit {i n : Nat} {m : Moments} {session session' : Session PartnerCreditResult}
      {post : Post} {response : HttpResponse} (hsession : w.credits i = some session)
      (hn : session.awaiting = some n) (hpost : w.sim.posts[n]? = some post)
      (hpc : post.pc = .answered response)
      (hnext : session.next creditOperation (cfg.adapter retry)
        (.answer (HttpPartnerAdapter.creditPoints (.ok response)) m) = some session') :
      WorldMove cfg retry w (w.setCredit i session')
  | failCredit {i n : Nat} {m : Moments} {e : TransportError}
      {session session' : Session PartnerCreditResult} {sim' : Simulator}
      (hsession : w.credits i = some session) (hsim : w.sim.abandon e (.drop n) = some sim')
      (hnext : session.next creditOperation (cfg.adapter retry)
        (.answer (HttpPartnerAdapter.creditPoints (.error e)) m) = some session') :
      WorldMove cfg retry w ({ w with sim := sim' }.setCredit i session')
  | leaveCredit {i : Nat} {session : Session PartnerCreditResult} {result : PartnerCreditResult}
      {s' : State} (hsession : w.credits i = some session)
      (hpc : session.call.pc = .returned result)
      (h : Step cfg w.engine (.request i (.answer result)) s') :
      WorldMove cfg retry w { w with engine := s' }
  | enterStatus {k : Nat} {now : Time} {breaker : CircuitBreaker} {p : Reconcile}
      {snap : Snapshot} (hp : w.engine.reconciles[k]? = some p) (hpc : p.pc = .asking snap) :
      WorldMove cfg retry w
        (w.setStatus k ⟨breaker, (cfg.adapter retry).start _ now, none⟩)
  | statusEvent {k : Nat} {e : CallEvent PartnerStatusResult}
      {session session' : Session PartnerStatusResult} (hsession : w.statuses k = some session)
      (he : e.isLocal = true)
      (hnext : session.next statusOperation (cfg.adapter retry) e = some session') :
      WorldMove cfg retry w (w.setStatus k session')
  | sendStatus {k : Nat} {gateAt checkedAt : Time} {session session' : Session PartnerStatusResult}
      {p : Reconcile} {snap : Snapshot} {sim' : Simulator} (hsession : w.statuses k = some session)
      (hp : w.engine.reconciles[k]? = some p) (hpc : p.pc = .asking snap)
      (hnext : session.next statusOperation (cfg.adapter retry) (.send gateAt checkedAt) =
        some session')
      (hget : simStep w.sim (.get snap.partnerCode snap.reference) = some sim') :
      WorldMove cfg retry w ({ w with sim := sim' }.setStatus k
        { session' with awaiting := some w.sim.gets.length })
  | receiveStatus {k n : Nat} {m : Moments} {session session' : Session PartnerStatusResult}
      {g : Get} {response : HttpResponse} (hsession : w.statuses k = some session)
      (hn : session.awaiting = some n) (hget : w.sim.gets[n]? = some g)
      (hpc : g.pc = .answered response)
      (hnext : session.next statusOperation (cfg.adapter retry)
        (.answer (HttpPartnerAdapter.getCreditStatus (.ok response)) m) = some session') :
      WorldMove cfg retry w (w.setStatus k session')
  | failStatus {k n : Nat} {m : Moments} {e : TransportError}
      {session session' : Session PartnerStatusResult} {sim' : Simulator}
      (hsession : w.statuses k = some session) (hsim : w.sim.abandon e (.dropGet n) = some sim')
      (hnext : session.next statusOperation (cfg.adapter retry)
        (.answer (HttpPartnerAdapter.getCreditStatus (.error e)) m) = some session') :
      WorldMove cfg retry w ({ w with sim := sim' }.setStatus k session')
  | leaveStatus {k : Nat} {session : Session PartnerStatusResult} {answer : PartnerStatusResult}
      {s' : State} (hsession : w.statuses k = some session)
      (hpc : session.call.pc = .returned answer)
      (h : Step cfg w.engine (.reconcile k (.status answer)) s') :
      WorldMove cfg retry w { w with engine := s' }

section

variable {cfg : Config} {retry : RetryPolicy} {db₀ : Database} {w w' : World}

theorem worldStep_move {a : WorldAction} (h : worldStep cfg retry w a = some w') :
    WorldMove cfg retry w w' := by
  cases a <;>
    simp only [worldStep, Option.bind_eq_bind, Option.bind_eq_some_iff, Option.pure_def,
      Option.some.injEq, Option.ite_none_right_eq_some] at h
  case engine a =>
    obtain ⟨ha, engine, hstep, rfl⟩ := h
    exact .engine ha (step_inv hstep)
  case partner a =>
    obtain ⟨ha, sim', hstep, rfl⟩ := h
    exact .partner ha (simStep_move hstep)
  case enterCredit i now breaker =>
    obtain ⟨engine, hstep, rfl⟩ := h
    exact .enterCredit (step_inv hstep)
  case creditEvent i e =>
    obtain ⟨session, hsession, he, session', hnext, rfl⟩ := h
    exact .creditEvent hsession he hnext
  case sendCredit i gateAt checkedAt =>
    obtain ⟨session, hsession, r, hr, h⟩ := h
    split at h
    · rename_i record d startedAt hpc
      simp only [Option.bind_eq_some_iff, Option.some.injEq] at h
      obtain ⟨engine, hstep, session', hnext, sim', hpost, rfl⟩ := h
      exact .sendCredit hsession hr hpc (step_inv hstep) hnext hpost
    · cases h
  case receiveCredit i error m =>
    obtain ⟨session, hsession, n, hn, post, hpost, h⟩ := h
    split at h
    · rename_i response hpc
      simp only [Option.bind_eq_some_iff, Option.some.injEq] at h
      obtain ⟨session', hnext, rfl⟩ := h
      exact .receiveCredit hsession hn hpost hpc hnext
    · rename_i e hpc
      simp only [Option.bind_eq_some_iff, Option.some.injEq] at h
      obtain ⟨sim', hsim, session', hnext, rfl⟩ := h
      exact .failCredit hsession hsim hnext
    · cases h
  case leaveCredit i =>
    obtain ⟨session, hsession, h⟩ := h
    split at h
    · rename_i result hpc
      simp only [Option.bind_eq_some_iff, Option.some.injEq] at h
      obtain ⟨engine, hstep, rfl⟩ := h
      exact .leaveCredit hsession hpc (step_inv hstep)
    · cases h
  case enterStatus k now breaker =>
    split at h
    · rename_i id snap hp hnone
      cases h
      exact .enterStatus hp rfl
    · cases h
  case statusEvent k e =>
    obtain ⟨session, hsession, he, session', hnext, rfl⟩ := h
    exact .statusEvent hsession he hnext
  case sendStatus k gateAt checkedAt =>
    obtain ⟨session, hsession, p, hp, h⟩ := h
    split at h
    · rename_i snap hpc
      simp only [Option.bind_eq_some_iff, Option.some.injEq] at h
      obtain ⟨session', hnext, sim', hget, rfl⟩ := h
      exact .sendStatus hsession hp hpc hnext hget
    · cases h
  case receiveStatus k error m =>
    obtain ⟨session, hsession, n, hn, g, hget, h⟩ := h
    split at h
    · rename_i response hpc
      simp only [Option.bind_eq_some_iff, Option.some.injEq] at h
      obtain ⟨session', hnext, rfl⟩ := h
      exact .receiveStatus hsession hn hget hpc hnext
    · rename_i e hpc
      simp only [Option.bind_eq_some_iff, Option.some.injEq] at h
      obtain ⟨sim', hsim, session', hnext, rfl⟩ := h
      exact .failStatus hsession hsim hnext
    · cases h
  case leaveStatus k =>
    obtain ⟨session, hsession, h⟩ := h
    split at h
    · rename_i answer hpc
      simp only [Option.bind_eq_some_iff, Option.some.injEq] at h
      obtain ⟨engine, hstep, rfl⟩ := h
      exact .leaveStatus hsession hpc (step_inv hstep)
    · cases h

/-- The engine moves by a step of its own, or stays. -/
theorem WorldMove.engine_step (h : WorldMove cfg retry w w') :
    w'.engine = w.engine ∨ ∃ a, Step cfg w.engine a w'.engine := by
  cases h with
  | engine _ h => exact .inr ⟨_, h⟩
  | enterCredit h => exact .inr ⟨_, h⟩
  | sendCredit _ _ _ h => exact .inr ⟨_, h⟩
  | leaveCredit _ _ h => exact .inr ⟨_, h⟩
  | leaveStatus _ _ h => exact .inr ⟨_, h⟩
  | _ => exact .inl rfl

/-- A fresh session has nothing from the partner yet. -/
theorem creditLinked_fresh (sim : Simulator) (d : DebitedTransfer) (breaker : CircuitBreaker)
    (adapter : ResilientPartnerAdapter) (now : Time) :
    CreditLinked sim d ⟨breaker, adapter.start _ now, none⟩ :=
  ⟨Call.start_holds adapter now, by simp⟩

theorem statusLinked_fresh (sim : Simulator) (snap : Snapshot) (breaker : CircuitBreaker)
    (adapter : ResilientPartnerAdapter) (now : Time) :
    StatusLinked sim snap ⟨breaker, adapter.start _ now, none⟩ :=
  ⟨Call.start_holds adapter now, by simp⟩

theorem simStep_post {sim sim' : Simulator} {r : CreditRequest}
    (h : simStep sim (.post r) = some sim') :
    sim'.posts[sim.posts.length]? = some ⟨r, .inTransit⟩ := by
  cases h
  simp

theorem simStep_get {sim sim' : Simulator} {partnerCode reference : String}
    (h : simStep sim (.get partnerCode reference) = some sim') :
    sim'.gets[sim.gets.length]? = some ⟨partnerCode, reference, .inTransit⟩ := by
  cases h
  simp

/-- The POST of an attempt asks for what the transfer says. -/
theorem OpenedBy.ordered {r : Request} {d : DebitedTransfer} {t : Transfer}
    (h : OpenedBy db₀ r d t) : Ordered db₀ t d.creditRequest :=
  ⟨h.partner, h.member, h.destinationPoints⟩

/-- A call starts with its session. -/
theorem Honest.enterCredit (hs : Seeded db₀) (hsound : Sound db₀ w.engine.store.db)
    (howned : Owned db₀ w.engine) (h : Honest db₀ w) {i : Nat} {now : Time} {s' : State}
    {session : Session PartnerCreditResult} (hfresh : ∀ d, CreditLinked w.sim d session)
    (hstep : Step cfg w.engine (.request i (.call now)) s') :
    Honest db₀ ({ w with engine := s' }.setCredit i session) := by
  have hset : Honest db₀ (w.setCredit i session) := h.setCredit fun _ _ d _ _ _ => hfresh d
  refine Honest.engine (w := w.setCredit i session) hs hsound howned hset hstep ?_ ?_ ?_
  · intro j now' session' heq hsession d
    cases heq
    have hsession : Function.update w.credits i (some session) i = some session' := hsession
    rw [Function.update_self] at hsession
    cases hsession
    exact hfresh d
  · intro j result r record d startedAt heq
    cases heq
  · intro k answer p snap heq
    cases heq

/-- An attempt leaves as a POST that asks for what the transfer says. -/
theorem Honest.sendCredit (hs : Seeded db₀) (hsound : Sound db₀ w.engine.store.db)
    (howned : Owned db₀ w.engine) (h : Honest db₀ w) {i : Nat} {checkedAt : Time}
    {session : Session PartnerCreditResult} {r : Request} {record : Nat} {d : DebitedTransfer}
    {startedAt : Time} {s' : State} {sim' : Simulator} (hr : w.engine.requests[i]? = some r)
    (hpc : r.pc = .calling record d startedAt)
    (hstep : Step cfg w.engine (.request i (.attempt checkedAt)) s')
    (hpost : simStep w.sim (.post d.creditRequest) = some sim')
    (hresults : session.call.Holds (CreditBacked w.sim d.partnerCode d.transferId)) :
    Honest db₀ ({ w with engine := s', sim := sim' }.setCredit i
      { session with awaiting := some w.sim.posts.length }) := by
  have hmove := simStep_move hpost
  have hpartner : Honest db₀ { w with sim := sim' } := by
    refine h.partner hmove ?_
    intro r' heq
    cases heq
    have hpcs := howned.pcs i r hr
    rw [hpc] at hpcs
    obtain ⟨-, t, ht, hopen, -⟩ := hpcs
    exact ⟨t, ht, hopen.ordered⟩
  have hengine : Honest db₀ { w with engine := s', sim := sim' } := by
    refine Honest.engine (w := { w with sim := sim' }) hs hsound howned hpartner hstep ?_ ?_ ?_
    · intro j now session' heq
      cases heq
    · intro j result r record d startedAt heq
      cases heq
    · intro k answer p snap heq
      cases heq
  refine hengine.setCredit ?_
  intro r' record' d' startedAt' hr' hpc'
  -- the request calls for the same transfer as before
  obtain rfl : d' = d := by
    rcases hstep.story hr' with ⟨hold, -⟩ | ⟨-, hnone, -⟩ | ⟨ha, hold, hm, rfl⟩
    · rw [hr] at hold
      cases hold
      rw [hpc] at hpc'
      cases hpc'
      rfl
    · rw [hr] at hnone
      cases hnone
    · rw [hr] at hold
      cases hold
      rcases (hm.calling hpc').2 with hcalling | ⟨rfl, -⟩
      · rw [hpc] at hcalling
        cases hcalling
        rfl
      · cases ha
  refine ⟨hresults.mono fun _ hb => hb.mono hmove.credits_subset, ?_⟩
  intro n hn
  cases hn
  exact ⟨_, simStep_post hpost, rfl⟩

theorem Honest.sendStatus (h : Honest db₀ w) {k : Nat} {session : Session PartnerStatusResult}
    {p : Reconcile} {snap : Snapshot} {sim' : Simulator}
    (hp : w.engine.reconciles[k]? = some p) (hpc : p.pc = .asking snap)
    (hget : simStep w.sim (.get snap.partnerCode snap.reference) = some sim')
    (hresults : session.call.Holds (StatusBacked w.sim snap.partnerCode snap.reference)) :
    Honest db₀ ({ w with sim := sim' }.setStatus k
      { session with awaiting := some w.sim.gets.length }) := by
  have hmove := simStep_move hget
  have hpartner : Honest db₀ { w with sim := sim' } := by
    refine h.partner hmove ?_
    intro r heq
    cases heq
  refine hpartner.setStatus ⟨p, hp, by rw [hpc]; rfl⟩ ?_
  intro p' snap' hp' hpc'
  obtain rfl : p = p' := Option.some.inj (hp.symm.trans hp')
  rw [hpc] at hpc'
  cases hpc'
  refine ⟨hresults.mono fun _ hb => hb.mono hmove.credits_subset, ?_⟩
  intro n hn
  cases hn
  exact ⟨_, simStep_get hget, rfl, rfl⟩

theorem Honest.step (hs : Seeded db₀) (hsound : Sound db₀ w.engine.store.db)
    (howned : Owned db₀ w.engine) (h : Honest db₀ w) (hm : WorldMove cfg retry w w') :
    Honest db₀ w' := by
  cases hm with
  | @engine a s' ha hstep =>
      refine h.engine hs hsound howned hstep ?_ ?_ ?_
      · rintro i now session rfl
        cases ha
      · rintro i result r record d startedAt rfl
        cases ha
      · rintro k answer p snap rfl
        cases ha
  | partner ha hm =>
      refine h.partner hm ?_
      rintro r rfl
      cases ha
  | @enterCredit i now breaker s' hstep =>
      exact h.enterCredit hs hsound howned
        (fun d => creditLinked_fresh w.sim d breaker _ now) hstep
  | creditEvent hsession he hnext =>
      refine h.setCredit ?_
      intro r record d startedAt hr hpc
      refine (h.credits _ r record d startedAt _ hr hpc hsession).next hnext ?_
      rintro x m rfl
      cases he
  | sendCredit hsession hr hpc hstep hnext hpost =>
      refine h.sendCredit hs hsound howned hr hpc hstep hpost ?_
      refine ((h.credits _ _ _ _ _ _ hr hpc hsession).next hnext ?_).results
      intro x m heq
      cases heq
  | receiveCredit hsession hn hpost hpc hnext =>
      refine h.setCredit ?_
      intro r record d startedAt hr hcalling
      have hlinked := h.credits _ r record d startedAt _ hr hcalling hsession
      refine hlinked.next hnext ?_
      intro x m heq
      cases heq
      obtain ⟨post', hpost', hreq⟩ := hlinked.awaiting _ hn
      rw [hpost] at hpost'
      cases hpost'
      have hshows := h.sim.posts _ (List.mem_of_getElem? hpost) _ (by rw [hpc]; rfl)
      rw [hreq] at hshows
      exact creditBacked_response hshows
  | failCredit hsession hsim hnext =>
      have habandon := h.abandon hsim fun r heq => by cases heq
      refine habandon.setCredit ?_
      intro r record d startedAt hr hpc
      refine (habandon.credits _ r record d startedAt _ hr hpc hsession).next hnext ?_
      intro x m heq
      cases heq
      exact creditBacked_error _
  | leaveCredit hsession hpc hstep =>
      refine h.engine hs hsound howned hstep ?_ ?_ ?_
      · intro i now session heq
        cases heq
      · intro i result' r record d startedAt heq hr hcalling
        cases heq
        exact (h.credits _ r record d startedAt _ hr hcalling hsession).results.2 _ hpc
      · intro k answer p snap heq
        cases heq
  | enterStatus hp hpc =>
      refine h.setStatus ⟨_, hp, by rw [hpc]; rfl⟩ ?_
      intro p snap _ _
      exact statusLinked_fresh w.sim snap _ _ _
  | statusEvent hsession he hnext =>
      refine h.setStatus (h.asked hsession) ?_
      intro p snap hp hpc
      refine (h.statuses _ p snap _ hp hpc hsession).next hnext ?_
      rintro x m rfl
      cases he
  | sendStatus hsession hp hpc hnext hget =>
      refine h.sendStatus hp hpc hget ?_
      refine ((h.statuses _ _ _ _ hp hpc hsession).next hnext ?_).results
      intro x m heq
      cases heq
  | receiveStatus hsession hn hget hpc hnext =>
      refine h.setStatus (h.asked hsession) ?_
      intro p snap hp hasking
      have hlinked := h.statuses _ p snap _ hp hasking hsession
      refine hlinked.next hnext ?_
      intro x m heq
      cases heq
      obtain ⟨g', hg', hcode, href⟩ := hlinked.awaiting _ hn
      rw [hget] at hg'
      cases hg'
      have hshows := h.sim.gets _ (List.mem_of_getElem? hget) _ hpc
      rw [hcode, href] at hshows
      exact statusBacked_response hshows
  | failStatus hsession hsim hnext =>
      have habandon := h.abandon hsim fun r heq => by cases heq
      refine habandon.setStatus (habandon.asked hsession) ?_
      intro p snap hp hpc
      refine (habandon.statuses _ p snap _ hp hpc hsession).next hnext ?_
      intro x m heq
      cases heq
      exact statusBacked_error _
  | leaveStatus hsession hpc hstep =>
      refine h.engine hs hsound howned hstep ?_ ?_ ?_
      · intro i now session heq
        cases heq
      · intro i result r record d startedAt heq
        cases heq
      · intro k answer' p snap heq hp hasking
        cases heq
        exact (h.statuses _ p snap _ hp hasking hsession).results.2 _ hpc

end

/-! ## Completed transfers -/

section

variable {cfg : Config} {retry : RetryPolicy} {w₀ w : World} {as : List WorldAction}

theorem World.Initial.honest (h : w₀.Initial) : Honest w₀.engine.store.db w₀ where
  sim := by
    refine ⟨?_, ?_, ?_, ?_⟩
    · simp [h.noCredits]
    · simp [h.noCredits]
    · simp [h.noPosts]
    · simp [h.noGets]
  posts := by simp [h.noPosts]
  credits := by simp [h.creditSessions]
  answered := by simp [h.engine.requests]
  statuses := by simp [h.statusSessions]
  unasked := fun k _ => h.statusSessions k
  snapshots := by simp [h.engine.reconciles]
  resolving := by simp [h.engine.reconciles]
  completed := by simp [h.engine.seeded.noTransfers]

/-- The three invariants hold in every reachable state. -/
theorem run_honest (h₀ : w₀.Initial) (h : Runs.run (worldStep cfg retry) w₀ as = some w) :
    Sound w₀.engine.store.db w.engine.store.db ∧ Owned w₀.engine.store.db w.engine ∧
      Honest w₀.engine.store.db w := by
  have hs := h₀.engine.seeded
  refine Runs.run_invariant (I := fun w => Sound w₀.engine.store.db w.engine.store.db ∧
    Owned w₀.engine.store.db w.engine ∧ Honest w₀.engine.store.db w) ?_
    ⟨hs.sound, h₀.engine.owned, h₀.honest⟩ h
  rintro w a w' ⟨hsound, howned, hhonest⟩ hstep
  have hm := worldStep_move hstep
  have hhonest' := hhonest.step hs hsound howned hm
  rcases hm.engine_step with heq | ⟨b, hb⟩
  · rw [heq]
    exact ⟨hsound, howned, hhonest'⟩
  · exact ⟨hsound.change hs (hb.change (hsound.accountIds hs)), howned.step hs hsound hb, hhonest'⟩

/-- A COMPLETED transfer has exactly one credit under its id at the partner of
its destination program, for its points and the member of its destination
account, and carries the confirmation id of that credit. -/
theorem completed_credited_once (h₀ : w₀.Initial)
    (h : Runs.run (worldStep cfg retry) w₀ as = some w) {t : Transfer}
    (ht : t ∈ w.engine.store.db.transfers) (hst : t.status = .completed) :
    ∃ p a credit, w.engine.store.db.program? t.destinationProgramId = some p ∧
      w.engine.store.db.account? t.destinationAccountId = some a ∧
      w.sim.credits.filter (fun c => decide (c.key = (p.partnerCode, t.id))) = [credit] ∧
      credit.points = t.destinationPoints ∧ a.externalMemberId = some credit.memberId ∧
      t.partnerConfirmationId = some credit.confirmationId := by
  obtain ⟨hsound, -, hhonest⟩ := run_honest h₀ h
  obtain ⟨p, confirmationId, hp, hconf, credit, hcredit, hkey, hid⟩ := hhonest.completed t ht hst
  have hreference : credit.reference = t.id := congrArg Prod.snd hkey
  -- the POST that made the credit asked for what the transfer says
  obtain ⟨post, hpost, hreq⟩ := hhonest.sim.made credit hcredit
  obtain ⟨t', ht', hordered⟩ := hhonest.posts post hpost
  rw [hreq] at ht' hordered
  obtain rfl : t = t' := by
    have hlookup := Table.lookup_of_mem hsound.transferIds ht
    rw [← hreference] at hlookup
    exact Option.some.inj (hlookup.symm.trans ht')
  obtain ⟨a₀, ha₀, hid₀, hmember⟩ := hordered.member
  have ha : a₀.plus (effects w.engine.store.db.transfers a₀) ∈ w.engine.store.db.accounts := by
    rw [hsound.accounts]
    exact List.mem_map_of_mem ha₀
  refine ⟨p, a₀.plus (effects w.engine.store.db.transfers a₀), credit, ?_, ?_, ?_,
    hordered.points.symm, hmember, ?_⟩
  · rw [Database.program?, hsound.programs]
    exact hp
  · have hlookup := Table.lookup_of_mem (hsound.accountIds h₀.engine.seeded) ha
    rw [Database.account?, ← hid₀]
    exact hlookup
  · rw [← hkey]
    exact Table.filter_key hhonest.sim.unique hcredit
  · rw [hconf, hid]

end

/-- The first attempt is applied but its answer is lost; the second one is
answered with the credit of the first. -/
def replayedRun : List WorldAction :=
  submittedRun.map .engine ++
    [.enterCredit 0 5 ({} : Settings).breaker, .sendCredit 0 5 5,
      .partner (.deliver 0 1 ⟨"00000001", "t1"⟩),
      .receiveCredit 0 (some (.other "ReadTimeout")) ⟨8, 8, 1⟩, .sendCredit 0 9 9,
      .partner (.deliver 1 1 ⟨"00000002", "t2"⟩), .receiveCredit 0 none ⟨9, 9, 1⟩,
      .leaveCredit 0, .engine (.request 0 (.outcome 10 10))]

def freshWorld : World := ⟨freshState, .initial, fun _ => none, fun _ => none⟩

theorem freshWorld_initial : freshWorld.Initial where
  engine := freshState_initial
  noCredits := rfl
  noPosts := rfl
  noGets := rfl
  creditSessions := fun _ => rfl
  statusSessions := fun _ => rfl

theorem completed_credited_once_replayedRun :
    ∃ w t, Runs.run (worldStep sampleConfig ({} : Settings).adapter.retry) freshWorld replayedRun =
        some w ∧ w.engine.store.db.transfer? sampleTransferId = some t ∧ t.status = .completed ∧
      ∃ p a credit, w.engine.store.db.program? t.destinationProgramId = some p ∧
        w.engine.store.db.account? t.destinationAccountId = some a ∧
        w.sim.credits.filter (fun c => decide (c.key = (p.partnerCode, t.id))) = [credit] ∧
        credit.points = t.destinationPoints ∧ a.externalMemberId = some credit.memberId ∧
        t.partnerConfirmationId = some credit.confirmationId := by
  have hany : (Runs.run (worldStep sampleConfig ({} : Settings).adapter.retry) freshWorld
      replayedRun).any (fun w => (w.engine.store.db.transfer? sampleTransferId).any fun t =>
        decide (t.status = .completed)) = true := by
    decide +kernel
  obtain ⟨w, hw, hall⟩ := (Option.any_eq_true _ _).mp hany
  obtain ⟨t, ht, hst⟩ := (Option.any_eq_true _ _).mp hall
  have hst := of_decide_eq_true hst
  exact ⟨w, t, hw, ht, hst,
    completed_credited_once freshWorld_initial hw (Table.lookup_mem ht) hst⟩

end LoyaltyTransfer
