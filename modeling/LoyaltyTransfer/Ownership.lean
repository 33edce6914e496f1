/-
# `LoyaltyTransfer.Ownership` — one request owns each partner call

A transfer is opened by one request, and only that request records it as
submitted and calls its partner.  Between any two of these steps the
reconcilers may move the transfer on; what they cannot do is recorded here,
per place the request can stand:

    debited            still SOURCE_DEBITED, or reversed as interrupted; never called
    submitted          past both, for good; not called yet
    calling, answered  past both, for good

The row lock and the re-check of the status are in the transactions; the
missing transition out of REVERSED is what makes "interrupted" final.

**Proved here.**

    each transfer has the journals of its status, and no last-line
    check fires but one                                         (`journals_match_status`)
    an interrupted transfer is never sent; a sent one is sent
    once, after PARTNER_SUBMITTED                               (`interrupted_never_sent`)
    one transfer, one debit, one caller per idempotency key     (`one_transfer_per_key`)
-/
import LoyaltyTransfer.Safety

namespace LoyaltyTransfer

open Transaction

/-! ## The two sides of the submission -/

/-- Reversed before the partner was contacted. -/
def Transfer.Interrupted (t : Transfer) : Prop :=
  t.status = .reversed ∧ t.failureCode = some .transferInterrupted

/-- The submission was recorded. -/
def Transfer.Past (t : Transfer) : Prop := t.status ≠ .sourceDebited ∧ ¬ t.Interrupted

section

variable {c : Cause} {t t' : Transfer}

theorem Advance.interrupted (h : Advance c t t') (ht : t.Interrupted) :
    t'.Interrupted := by
  cases h with
  | stay hs hf _ => exact ⟨hs.trans ht.1, hf.trans ht.2⟩
  | submitted _ hs => rw [ht.1] at hs; cases hs
  | parked hs _ => simp [ht.1, verifiableStatuses] at hs
  | settled hs _ => simp [ht.1, verifiableStatuses] at hs
  | reversed hs =>
      cases hs with
      | rejected hs => rw [ht.1] at hs; cases hs
      | unavailable hs => rw [ht.1] at hs; cases hs
      | notReceived hs _ => simp [ht.1, verifiableStatuses] at hs
      | interrupted hs => rw [ht.1] at hs; cases hs

theorem Advance.past (h : Advance c t t') (ht : t.Past) : t'.Past := by
  cases h with
  | stay hs hf _ =>
      refine ⟨by rw [hs]; exact ht.1, fun hi => ht.2 ⟨?_, ?_⟩⟩
      · rw [← hs]; exact hi.1
      · rw [← hf]; exact hi.2
  | submitted _ hs => exact absurd hs ht.1
  | parked _ hs' =>
      refine ⟨fun hs => ?_, fun hi => ?_⟩
      · rw [hs] at hs'; rcases hs' with hs' | hs' <;> cases hs'
      · rw [hi.1] at hs'; rcases hs' with hs' | hs' <;> cases hs'
  | settled => exact ⟨by rintro ⟨⟩, fun hi => by cases hi.1⟩
  | reversed hs =>
      refine ⟨by rintro ⟨⟩, fun hi => ?_⟩
      cases hs with
      | rejected => cases hi.2
      | unavailable => cases hi.2
      | notReceived => cases hi.2
      | interrupted hs => exact ht.1 hs

/-- Until it is submitted, a debited transfer stays or is interrupted. -/
theorem Advance.waiting (h : Advance c t t') (hsub : ¬ c.submits t.id)
    (ht : t.status = .sourceDebited ∨ t.Interrupted) :
    t'.status = .sourceDebited ∨ t'.Interrupted := by
  rcases ht with ht | ht
  · cases h with
    | stay hs _ _ => exact .inl (hs.trans ht)
    | submitted hs _ => exact absurd hs hsub
    | parked hs _ => simp [ht, verifiableStatuses] at hs
    | settled hs _ => simp [ht, verifiableStatuses] at hs
    | reversed hs =>
        cases hs with
        | rejected hs => rw [ht] at hs; cases hs
        | unavailable hs => rw [ht] at hs; cases hs
        | notReceived hs _ => simp [ht, verifiableStatuses] at hs
        | interrupted => exact .inr ⟨rfl, rfl⟩
  · exact .inr (h.interrupted ht)

end

/-! ## What a request knows of its transfer -/

/-- The transfer is the one the body asks for. -/
structure Requested (db₀ : Database) (body : TransferRequest) (t : Transfer) : Prop where
  sourcePoints : t.sourcePoints = body.sourcePoints
  source : ∃ p, db₀.program? t.sourceProgramId = some p ∧ p.code = body.sourceProgram
  destination :
    ∃ p, db₀.program? t.destinationProgramId = some p ∧ p.code = body.destinationProgram

/-- The transfer has the request's user and key. -/
structure KeyOf (r : Request) (t : Transfer) : Prop where
  userId : t.userId = r.userId
  key : t.idempotencyKey = r.key

/-- The request opened the transfer, and `d` is what it noted of it. -/
structure OpenedBy (db₀ : Database) (r : Request) (d : DebitedTransfer) (t : Transfer) :
    Prop where
  key : KeyOf r t
  body : Requested db₀ r.body t
  destinationPoints : t.destinationPoints = d.destinationPoints
  partner : ∃ p, db₀.program? t.destinationProgramId = some p ∧ p.partnerCode = d.partnerCode
  member : ∃ a ∈ db₀.accounts, a.id = t.destinationAccountId ∧ a.externalMemberId = some d.memberId

/-- The submission of transfer `id` is in the audit trail. -/
def Database.Submitted (db : Database) (id : String) : Prop :=
  ∃ e ∈ db.transferEvents, e.transferId = id ∧ e.toStatus = .partnerSubmitted

/-- The transfers whose partner was called. -/
def Store.called (st : Store) : List String := st.creditCalls.map Prod.snd

/-- What holds while a request stands at `pc`. -/
def PcSound (db₀ : Database) (st : Store) (r : Request) : RequestPc → Prop
  | .debited _ d => d.transferId ∉ st.called ∧
      ∃ t, st.db.transfer? d.transferId = some t ∧ OpenedBy db₀ r d t ∧
        (t.status = .sourceDebited ∨ t.Interrupted)
  | .submitted _ d => d.transferId ∉ st.called ∧ st.db.Submitted d.transferId ∧
      ∃ t, st.db.transfer? d.transferId = some t ∧ OpenedBy db₀ r d t ∧ t.Past
  | .calling _ d _ | .answered _ d _ => d.transferId ∈ st.called ∧
      ∃ t, st.db.transfer? d.transferId = some t ∧ OpenedBy db₀ r d t ∧ t.Past
  | .created _ id => ∃ t, st.db.transfer? id = some t ∧ KeyOf r t
  | .collided _ => ∃ id t, st.db.transfer? id = some t ∧ KeyOf r t
  | _ => True

/-- The transfer a request has yet to send. -/
def RequestPc.unsent : RequestPc → Option String
  | .debited _ d | .submitted _ d => some d.transferId
  | _ => none

/-- Every partner call was made by the request that opened the transfer, after
its submission was recorded, and once. -/
structure Owned (db₀ : Database) (s : State) : Prop where
  pcs : ∀ (i : Nat) (r : Request), s.requests[i]? = some r → PcSound db₀ s.store r r.pc
  unsent : ∀ (i j : Nat) (r r' : Request) (id : String), s.requests[i]? = some r →
    s.requests[j]? = some r' →
    r.pc.unsent = some id → r'.pc.unsent = some id → i = j
  calls : ∀ c ∈ s.store.creditCalls, s.store.db.Submitted c.2 ∧
    ∃ r t, s.requests[c.1]? = some r ∧ s.store.db.transfer? c.2 = some t ∧ KeyOf r t ∧ t.Past
  once : s.store.called.Nodup
  attempts : ∀ x ∈ s.store.attempts, x.1 ∈ s.store.called

/-! ## The part of one request in a step -/

/-- How request `j` came to be what it is after a step. -/
inductive RequestStory (cfg : Config) (s : State) (a : Action) (s' : State) (j : Nat)
    (r' : Request) : Prop
  | same (h : s.requests[j]? = some r') (hother : ∀ act, a ≠ .request j act)
  | arrived {userId key : String} {body : TransferRequest} (ha : a = .arrive userId key body)
      (hj : s.requests[j]? = none) (hr : r' = ⟨userId, key, body, .beginning .acquiring⟩)
  | moved {r : Request} {act : RequestAction} {pc : RequestPc} (ha : a = .request j act)
      (hr : s.requests[j]? = some r) (hm : RequestMove cfg j r s.store act s'.store pc)
      (hr' : r' = { r with pc })

/-- How reconcile `k` came to be what it is after a step. -/
inductive ReconcileStory (cfg : Config) (s : State) (a : Action) (s' : State) (k : Nat)
    (p' : Reconcile) : Prop
  | same (h : s.reconciles[k]? = some p')
  | started (hpc : p'.pc = .started)
  | moved {p : Reconcile} {act : ReconcileAction} {pc : ReconcilePc} (ha : a = .reconcile k act)
      (hp : s.reconciles[k]? = some p) (hm : ReconcileMove cfg p s.store act s'.store pc)
      (hp' : p' = { p with pc })

section

variable {cfg : Config} {s s' : State} {a : Action}

theorem Step.story (h : Step cfg s a s') {j : Nat} {r' : Request}
    (hr' : s'.requests[j]? = some r') : RequestStory cfg s a s' j r' := by
  cases h with
  | arrive hadm =>
      rcases Nat.lt_trichotomy j s.requests.length with hj | rfl | hj
      · rw [List.getElem?_append_left hj] at hr'
        exact .same hr' (by simp)
      · rw [List.getElem?_append_right le_rfl, Nat.sub_self] at hr'
        cases hr'
        exact .arrived rfl (List.getElem?_eq_none le_rfl) rfl
      · rw [List.getElem?_eq_none (by simpa using hj)] at hr'
        cases hr'
  | @request i r act st pc hr hm =>
      simp only [List.getElem?_set] at hr'
      split at hr'
      · rename_i hij
        subst hij
        have hlt := (List.getElem?_eq_some_iff.mp hr).1
        rw [if_pos hlt] at hr'
        cases hr'
        exact .moved rfl hr hm rfl
      · rename_i hij
        exact .same hr' fun act heq => hij (by cases heq; rfl)
  | _ => exact .same hr' (by simp)

theorem Step.reconcileStory (h : Step cfg s a s') {k : Nat} {p' : Reconcile}
    (hp' : s'.reconciles[k]? = some p') : ReconcileStory cfg s a s' k p' := by
  cases h with
  | startReconcile =>
      rcases Nat.lt_trichotomy k s.reconciles.length with hk | rfl | hk
      · rw [List.getElem?_append_left hk] at hp'
        exact .same hp'
      · rw [List.getElem?_append_right le_rfl, Nat.sub_self] at hp'
        cases hp'
        exact .started rfl
      · rw [List.getElem?_eq_none (by simpa using hk)] at hp'
        cases hp'
  | @reconcile j p act st pc hp hm =>
      simp only [List.getElem?_set] at hp'
      split at hp'
      · rename_i hjk
        subst hjk
        rw [if_pos (List.getElem?_eq_some_iff.mp hp).1] at hp'
        cases hp'
        exact .moved rfl hp hm rfl
      · exact .same hp'
  | _ => exact .same hp'

/-- A request keeps its number and what it asked for. -/
theorem Step.request_persists (h : Step cfg s a s') {i : Nat} {r : Request}
    (hr : s.requests[i]? = some r) :
    ∃ r', s'.requests[i]? = some r' ∧ r'.userId = r.userId ∧ r'.key = r.key ∧
      r'.body = r.body := by
  have hlt := (List.getElem?_eq_some_iff.mp hr).1
  cases h with
  | arrive => exact ⟨r, by rw [List.getElem?_append_left hlt]; exact hr, rfl, rfl, rfl⟩
  | @request j r' act st pc hr' hm =>
      by_cases hij : j = i
      · subst hij
        rw [hr] at hr'
        cases hr'
        exact ⟨{ r with pc }, by simp [hlt], rfl, rfl, rfl⟩
      · exact ⟨r, by simpa [List.getElem?_set, hij] using hr, rfl, rfl, rfl⟩
  | _ => exact ⟨r, hr, rfl, rfl, rfl⟩

/-- The record of partner calls grows by the calls alone. -/
theorem Step.creditCalls (h : Step cfg s a s') :
    s'.store.creditCalls = s.store.creditCalls ∨
      ∃ i now r record d, a = .request i (.call now) ∧ s.requests[i]? = some r ∧
        r.pc = .submitted record d ∧
        s'.store.creditCalls = s.store.creditCalls ++ [(i, d.transferId)] := by
  cases h with
  | request hr hm =>
      cases hm with
      | call hpc => exact .inr ⟨_, _, _, _, _, rfl, hr, hpc, rfl⟩
      | _ => exact .inl rfl
  | reconcile hp hm => cases hm <;> exact .inl rfl
  | _ => exact .inl rfl

/-- Attempts belong to a call that is under way. -/
theorem Step.attempts (h : Step cfg s a s') :
    s'.store.attempts = s.store.attempts ∨
      ∃ i now r record d startedAt, a = .request i (.attempt now) ∧ s.requests[i]? = some r ∧
        r.pc = .calling record d startedAt ∧ now < startedAt + cfg.partnerDeadline ∧
        s'.store.attempts = s.store.attempts ++ [(d.transferId, now)] := by
  cases h with
  | request hr hm =>
      cases hm with
      | attempt hpc hlt => exact .inr ⟨_, _, _, _, _, _, rfl, hr, hpc, hlt, rfl⟩
      | _ => exact .inl rfl
  | reconcile hp hm => cases hm <;> exact .inl rfl
  | _ => exact .inl rfl

end

/-! ## A step of another process -/

section

variable {db₀ : Database} {st st' : Store} {r : Request} {d : DebitedTransfer} {t t' : Transfer}
  {c : Cause}

theorem Requested.sameTerms {body : TransferRequest} (h : Requested db₀ body t)
    (hterms : SameTerms t t') : Requested db₀ body t' where
  sourcePoints := hterms.sourcePoints.trans h.sourcePoints
  source := by rw [hterms.sourceProgramId]; exact h.source
  destination := by rw [hterms.destinationProgramId]; exact h.destination

theorem KeyOf.sameTerms (h : KeyOf r t) (hterms : SameTerms t t') : KeyOf r t' :=
  ⟨hterms.userId.trans h.userId, hterms.idempotencyKey.trans h.key⟩

theorem OpenedBy.sameTerms (h : OpenedBy db₀ r d t) (hterms : SameTerms t t') :
    OpenedBy db₀ r d t' where
  key := h.key.sameTerms hterms
  body := h.body.sameTerms hterms
  destinationPoints := hterms.destinationPoints.trans h.destinationPoints
  partner := by rw [hterms.destinationProgramId]; exact h.partner
  member := by rw [hterms.destinationAccountId]; exact h.member

theorem Change.submitted_mono {db db' : Database} (h : Change c db db') {id : String}
    (hs : db.Submitted id) : db'.Submitted id := by
  obtain ⟨e, he, hid, hto⟩ := hs
  exact ⟨e, h.events_subset he, hid, hto⟩

/-- What a request knows stays true while others move: nobody else submits or
sends the transfer it has yet to send. -/
theorem PcSound.rely (hc : Change c st.db st'.db)
    (hsub : ∀ id, r.pc.unsent = some id → ¬ c.submits id)
    (hkeep : ∀ id ∈ st.called, id ∈ st'.called)
    (hsent : ∀ id, r.pc.unsent = some id → id ∈ st'.called → id ∈ st.called)
    (h : PcSound db₀ st r r.pc) : PcSound db₀ st' r r.pc := by
  cases hpc : r.pc with
  | debited record d =>
      rw [hpc] at h
      obtain ⟨hcall, t, ht, hopen, hst⟩ := h
      obtain ⟨t', ht', hterms, hadv⟩ := hc.advance ht
      have hid : t.id = d.transferId := Table.lookup_key ht
      have hun : r.pc.unsent = some d.transferId := by rw [hpc]; rfl
      refine ⟨fun hmem => hcall (hsent _ hun hmem), t', ht', hopen.sameTerms hterms, ?_⟩
      exact hadv.waiting (by rw [hid]; exact hsub _ hun) hst
  | submitted record d =>
      rw [hpc] at h
      obtain ⟨hcall, hev, t, ht, hopen, hst⟩ := h
      obtain ⟨t', ht', hterms, hadv⟩ := hc.advance ht
      have hun : r.pc.unsent = some d.transferId := by rw [hpc]; rfl
      exact ⟨fun hmem => hcall (hsent _ hun hmem), hc.submitted_mono hev, t', ht',
        hopen.sameTerms hterms, hadv.past hst⟩
  | calling record d startedAt =>
      rw [hpc] at h
      obtain ⟨hcall, t, ht, hopen, hst⟩ := h
      obtain ⟨t', ht', hterms, hadv⟩ := hc.advance ht
      exact ⟨hkeep _ hcall, t', ht', hopen.sameTerms hterms, hadv.past hst⟩
  | answered record d result =>
      rw [hpc] at h
      obtain ⟨hcall, t, ht, hopen, hst⟩ := h
      obtain ⟨t', ht', hterms, hadv⟩ := hc.advance ht
      exact ⟨hkeep _ hcall, t', ht', hopen.sameTerms hterms, hadv.past hst⟩
  | created record id =>
      rw [hpc] at h
      obtain ⟨t, ht, hkey⟩ := h
      obtain ⟨t', ht', hterms, -⟩ := hc.advance ht
      exact ⟨t', ht', hkey.sameTerms hterms⟩
  | collided record =>
      rw [hpc] at h
      obtain ⟨id, t, ht, hkey⟩ := h
      obtain ⟨t', ht', hterms, -⟩ := hc.advance ht
      exact ⟨id, t', ht', hkey.sameTerms hterms⟩
  | _ => trivial

end

/-! ## Requests without a transfer -/

/-- The request knows of no transfer: it has none yet, or is past caring. -/
def RequestPc.idle : RequestPc → Bool
  | .debited _ _ | .submitted _ _ | .calling _ _ _ | .answered _ _ _ | .created _ _
  | .collided _ => false
  | _ => true

theorem handlerRaised_idle (record : Nat) (f : Fault) : (handlerRaised record f).idle = true := by
  cases f with
  | domain e =>
      simp only [handlerRaised]
      split <;> rfl
  | _ => rfl

theorem beginPc_idle (pc : BeginPc ResponseBody) : (beginPc pc).idle = true := by
  cases pc with
  | finished result =>
      simp only [beginPc, afterBegin]
      repeat' split
      all_goals rfl
  | _ => rfl

theorem detailsPc_idle (db : Database) (userId : String) (record : Nat) (transferId : String) :
    (detailsPc db userId record transferId).idle = true := by
  simp only [detailsPc]
  split <;> rfl

theorem faulted_idle {f : Fault} {pc pc' : RequestPc} (h : faulted f pc = some pc') :
    pc'.idle = true := by
  cases pc <;> cases h <;> rfl

theorem PcSound.of_idle {db₀ : Database} {st : Store} {r : Request} {pc : RequestPc}
    (h : pc.idle = true) : PcSound db₀ st r pc := by
  cases pc <;> trivial

theorem unsent_of_idle {pc : RequestPc} (h : pc.idle = true) : pc.unsent = none := by
  cases pc <;> first | rfl | cases h

/-! ## A step of the request itself -/

section

variable {cfg : Config} {db₀ : Database} {st st' : Store} {r : Request} {i : Nat}
  {act : RequestAction} {pc : RequestPc}

theorem OpenedBy.withPc {d : DebitedTransfer} {t : Transfer} (h : OpenedBy db₀ r d t) :
    OpenedBy db₀ { r with pc } d t :=
  ⟨⟨h.key.userId, h.key.key⟩, h.body, h.destinationPoints, h.partner, h.member⟩

theorem KeyOf.withPc {t : Transfer} (h : KeyOf r t) : KeyOf { r with pc } t := ⟨h.userId, h.key⟩

/-- The program a route names, looked up by its id. -/
theorem Sound.routeProgram {db : Database} (h : Sound db₀ db) (hs : Seeded db₀) {code : String}
    {p : ProgramRef} (hp : ∃ row ∈ db.programs, row.code = code ∧ p = row.toRef) :
    ∃ row, db₀.program? p.id = some row ∧ row.code = code := by
  obtain ⟨row, hrow, hcode, rfl⟩ := hp
  rw [h.programs] at hrow
  exact ⟨row, Table.lookup_of_mem hs.programIds hrow, hcode⟩

/-- A debit opens the transfer its request asked for. -/
theorem openedBy_debit {db : Database} (h : Sound db₀ db) (hs : Seeded db₀) {now createdAt : Time}
    {transferId : String} {terms : DebitTerms} (hp : Priced db now r.userId r.body terms) :
    OpenedBy db₀ r ⟨transferId, terms.partnerCode, terms.memberId,
        terms.conversion.destinationPoints⟩
      ((terms.transfer transferId r.userId r.key createdAt).movedTo .sourceDebited now) where
  key := ⟨rfl, rfl⟩
  body := {
    sourcePoints := calculateConversion_ok hp.conversion
    source := h.routeProgram hs (getRoute_ok hp.route).1
    destination := h.routeProgram hs (getRoute_ok hp.route).2 }
  destinationPoints := rfl
  partner := by
    obtain ⟨p, hprogram, hcode⟩ := hp.partner
    refine ⟨p, ?_, hcode⟩
    rw [Database.program?, h.programs] at hprogram
    exact hprogram
  member := by
    obtain ⟨a₀, ha₀, heq⟩ := h.seeded_of_mem (userAccount?_spec hp.destination).1
    refine ⟨a₀, ha₀, ?_, ?_⟩
    · exact (congrArg Account.id heq).symm
    · exact (congrArg Account.externalMemberId heq).symm.trans hp.member

theorem transfer?_opened {db : Database} {t : Transfer} {source clearing : Account}
    {events : List TransferEvent} {moment : Time} (hnew : ∀ x ∈ db.transfers, x.id ≠ t.id) :
    (opened db t source clearing events moment).transfer? t.id = some t := by
  have hnone : db.transfers.find? (fun x => decide (x.id = t.id)) = none :=
    List.find?_eq_none.mpr fun x hx => by simpa using hnew x hx
  simp [Database.transfer?, Table.lookup, opened, List.find?_append, hnone]

theorem RequestMove.pcSound (hs : Seeded db₀) (hsound : Sound db₀ st.db)
    (hcalls : ∀ id ∈ st.called, ∃ t, st.db.transfer? id = some t)
    (hm : RequestMove cfg i r st act st' pc) (hpc : PcSound db₀ st r r.pc) :
    PcSound db₀ st' { r with pc } pc := by
  have hn := hsound.accountIds hs
  cases hm with
  | statement => exact .of_idle (beginPc_idle _)
  | debited hadm hrun =>
      obtain ⟨terms, t, events, hp, rfl, rfl, ho, -, rfl⟩ := openTransfer_change hn hrun
      refine ⟨fun hcalled => ?_, _, transfer?_opened ho.insertable.id,
        (openedBy_debit hsound hs hp).withPc, .inl rfl⟩
      obtain ⟨t, ht⟩ := hcalls _ hcalled
      exact ho.insertable.id t (Table.lookup_mem ht) (Table.lookup_key ht)
  | collided hadm hrun =>
      obtain ⟨t, ht, huser, hkey⟩ := openTransfer_collided hsound hs hrun
      exact ⟨t.id, t, Table.lookup_of_mem hsound.transferIds ht, ⟨huser, hkey⟩⟩
  | debitRaised => exact .of_idle (handlerRaised_idle _ _)
  | found hcol hrun =>
      obtain ⟨t, ht, rfl, rfl⟩ := findByIdempotencyKey_ok.mp hrun
      have hkey := List.find?_some ht
      simp only [decide_eq_true_eq] at hkey
      exact ⟨t, Table.lookup_of_mem hsound.transferIds (List.mem_of_find?_eq_some ht), hkey.1,
        hkey.2⟩
  | findRaised => exact .of_idle (handlerRaised_idle _ _)
  | @submitted now record d _ _ hdeb hrun =>
      rw [hdeb] at hpc
      obtain ⟨hcall, t, ht, hopen, -⟩ := hpc
      obtain ⟨t', event, ht', hst, ⟨heid, heto⟩, -, rfl⟩ := markSubmitted_change hrun
      rw [ht] at ht'
      cases ht'
      have hid : t.id = d.transferId := Table.lookup_key ht
      refine ⟨hcall, ⟨event, List.mem_append_right _ (List.mem_singleton_self _),
        heid.trans hid, heto⟩, t.movedTo .partnerSubmitted now, ?_,
        (hopen.sameTerms (sameTerms_movedTo _ _ _)).withPc, ?_⟩
      · rw [← hid] at ht ⊢
        exact Table.lookup_replace_self (r := t.movedTo .partnerSubmitted now) ht
      · exact ⟨by rintro ⟨⟩, fun hi => by cases hi.1⟩
  | submitRaised => exact .of_idle (handlerRaised_idle _ _)
  | call hsub =>
      rw [hsub] at hpc
      obtain ⟨-, -, t, ht, hopen, hst⟩ := hpc
      refine ⟨?_, t, ht, hopen.withPc, hst⟩
      simp [Store.called]
  | attempt hcalling =>
      rw [hcalling] at hpc ⊢
      obtain ⟨hcall, t, ht, hopen, hst⟩ := hpc
      exact ⟨hcall, t, ht, hopen.withPc, hst⟩
  | answer hcalling =>
      rw [hcalling] at hpc
      obtain ⟨hcall, t, ht, hopen, hst⟩ := hpc
      exact ⟨hcall, t, ht, hopen.withPc, hst⟩
  | recorded hans hrun =>
      rw [hans] at hpc
      obtain ⟨-, t, ht, hopen, -⟩ := hpc
      have hchange : Change ⟨fun _ => False, fun _ => False, fun _ => True, fun _ _ => True,
          fun _ => False⟩ st.db _ :=
        applyPartnerOutcome_change hn trivial (fun _ _ _ => trivial) hrun
      obtain ⟨t', ht', hterms, -⟩ := hchange.advance ht
      exact ⟨t', ht', (hopen.key.sameTerms hterms).withPc⟩
  | recordRaised => exact .of_idle (handlerRaised_idle _ _)
  | details => exact .of_idle (detailsPc_idle _ _ _ _)
  | store => trivial
  | release => trivial
  | fault h => exact .of_idle (faulted_idle h)
  | crash => trivial

end

/-! ## The invariant along a run -/

section

variable {cfg : Config} {db₀ : Database} {s s' : State} {a : Action}

/-- A request has a transfer to send because it just opened it, or because it
had it to send before. -/
theorem RequestMove.unsent {st st' : Store} {r : Request} {i : Nat} {act : RequestAction}
    {pc : RequestPc} (hn : (st.db.accounts.map Account.id).Nodup)
    (hm : RequestMove cfg i r st act st' pc) {id : String} (hu : pc.unsent = some id) :
    (∀ t ∈ st.db.transfers, t.id ≠ id) ∨ r.pc.unsent = some id := by
  have hidle : pc.idle = true → False := fun h => by rw [unsent_of_idle h] at hu; cases hu
  cases hm with
  | debited hadm hrun =>
      obtain ⟨terms, t, events, hp, rfl, rfl, ho, -, rfl⟩ := openTransfer_change hn hrun
      cases hu
      exact .inl ho.insertable.id
  | submitted hdeb hrun => exact .inr (by rw [hdeb]; exact hu)
  | attempt => exact .inr hu
  | statement => exact (hidle (beginPc_idle _)).elim
  | debitRaised => exact (hidle (handlerRaised_idle _ _)).elim
  | findRaised => exact (hidle (handlerRaised_idle _ _)).elim
  | submitRaised => exact (hidle (handlerRaised_idle _ _)).elim
  | recordRaised => exact (hidle (handlerRaised_idle _ _)).elim
  | details => exact (hidle (detailsPc_idle _ _ _ _)).elim
  | fault h => exact (hidle (faulted_idle h)).elim
  | _ => cases hu

/-- A call under way was just started, or was under way. -/
theorem RequestMove.calling (hm : RequestMove cfg i r st act st' pc) {record : Nat}
    {d : DebitedTransfer} {startedAt : Time} (hpc : pc = .calling record d startedAt) :
    st'.db = st.db ∧ (r.pc = .calling record d startedAt ∨
      act = .call startedAt ∧ r.pc = .submitted record d) := by
  have hidle : pc.idle = true → False := fun h => by rw [hpc] at h; cases h
  cases hm with
  | call hsub =>
      cases hpc
      exact ⟨rfl, .inr ⟨rfl, hsub⟩⟩
  | attempt => exact ⟨rfl, .inl hpc⟩
  | statement => exact (hidle (beginPc_idle _)).elim
  | debitRaised => exact (hidle (handlerRaised_idle _ _)).elim
  | findRaised => exact (hidle (handlerRaised_idle _ _)).elim
  | submitRaised => exact (hidle (handlerRaised_idle _ _)).elim
  | recordRaised => exact (hidle (handlerRaised_idle _ _)).elim
  | details => exact (hidle (detailsPc_idle _ _ _ _)).elim
  | fault h => exact (hidle (faulted_idle h)).elim
  | _ => cases hpc

theorem Owned.called_transfer (h : Owned db₀ s) {id : String} (hid : id ∈ s.store.called) :
    ∃ t, s.store.db.transfer? id = some t := by
  obtain ⟨c, hc, rfl⟩ := List.mem_map.mp hid
  obtain ⟨-, r, t, -, ht, -⟩ := h.calls c hc
  exact ⟨t, ht⟩

theorem Owned.unsent_transfer (h : Owned db₀ s) {i : Nat} {r : Request} {id : String}
    (hr : s.requests[i]? = some r) (hu : r.pc.unsent = some id) :
    id ∉ s.store.called ∧ ∃ t, s.store.db.transfer? id = some t := by
  have hpc := h.pcs i r hr
  cases hp : r.pc with
  | debited record d =>
      rw [hp] at hu hpc
      cases hu
      exact ⟨hpc.1, hpc.2.choose, hpc.2.choose_spec.1⟩
  | submitted record d =>
      rw [hp] at hu hpc
      cases hu
      exact ⟨hpc.1, hpc.2.2.choose, hpc.2.2.choose_spec.1⟩
  | _ => rw [hp] at hu; cases hu

/-- Only the owner of an unsent transfer submits it. -/
theorem Owned.not_submits (h : Owned db₀ s) {j : Nat} {r : Request}
    (hr : s.requests[j]? = some r) (hother : ∀ act, a ≠ .request j act) {id : String}
    (hu : r.pc.unsent = some id) : ¬ s.submits a id := by
  rintro ⟨i, now, r', record, d, rfl, hr', hpc, rfl⟩
  refine hother (.submit now) ?_
  rw [h.unsent j i r r' _ hr hr' hu (by rw [hpc]; rfl)]

/-- Only the owner of an unsent transfer sends it. -/
theorem Owned.called_of_other (h : Owned db₀ s) (hstep : Step cfg s a s') {j : Nat} {r : Request}
    (hr : s.requests[j]? = some r) (hother : ∀ act, a ≠ .request j act) {id : String}
    (hu : r.pc.unsent = some id) (hcalled : id ∈ s'.store.called) : id ∈ s.store.called := by
  rcases hstep.creditCalls with heq | ⟨i, now, r', record, d, rfl, hr', hpc, heq⟩
  · rw [Store.called, heq] at hcalled
    exact hcalled
  · rw [Store.called, heq, List.map_append, List.mem_append] at hcalled
    rcases hcalled with hcalled | hcalled
    · exact hcalled
    · obtain rfl : id = d.transferId := by simpa using hcalled
      exfalso
      refine hother (.call now) ?_
      rw [h.unsent j i r r' _ hr hr' hu (by rw [hpc]; rfl)]

theorem Step.called_mono (hstep : Step cfg s a s') {id : String} (hid : id ∈ s.store.called) :
    id ∈ s'.store.called := by
  rcases hstep.creditCalls with heq | ⟨_, _, _, _, _, -, -, -, heq⟩
  · rw [Store.called, heq]
    exact hid
  · rw [Store.called, heq, List.map_append]
    exact List.mem_append_left _ hid

theorem Owned.pcs_step (hs : Seeded db₀) (hsound : Sound db₀ s.store.db) (h : Owned db₀ s)
    (hstep : Step cfg s a s') {j : Nat} {r' : Request} (hr' : s'.requests[j]? = some r') :
    PcSound db₀ s'.store r' r'.pc := by
  rcases hstep.story hr' with ⟨hr, hother⟩ | ⟨-, -, rfl⟩ | ⟨rfl, hr, hm, rfl⟩
  · exact (h.pcs j r' hr).rely (hstep.change (hsound.accountIds hs))
      (fun id hu => h.not_submits hr hother hu) (fun id => hstep.called_mono)
      (fun id hu => h.called_of_other hstep hr hother hu)
  · trivial
  · exact hm.pcSound hs hsound (fun id => h.called_transfer) (h.pcs j _ hr)

/-- An unsent transfer after a step was unsent before, by the same request, or
was just opened by it. -/
theorem Step.unsent_cases (hn : (s.store.db.accounts.map Account.id).Nodup)
    (hstep : Step cfg s a s') {j : Nat} {r' : Request} {id : String}
    (hr' : s'.requests[j]? = some r') (hu : r'.pc.unsent = some id) :
    (∃ r, s.requests[j]? = some r ∧ r.pc.unsent = some id) ∨
      ((∀ t ∈ s.store.db.transfers, t.id ≠ id) ∧ ∃ act, a = .request j act) := by
  rcases hstep.story hr' with ⟨hr, hother⟩ | ⟨-, -, rfl⟩ | ⟨rfl, hr, hm, rfl⟩
  · exact .inl ⟨r', hr, hu⟩
  · cases hu
  · rcases hm.unsent hn hu with hnew | hold
    · exact .inr ⟨hnew, _, rfl⟩
    · exact .inl ⟨_, hr, hold⟩

theorem Owned.unsent_step (hs : Seeded db₀) (hsound : Sound db₀ s.store.db) (h : Owned db₀ s)
    (hstep : Step cfg s a s') {i j : Nat} {r r' : Request} {id : String}
    (hr : s'.requests[i]? = some r) (hr' : s'.requests[j]? = some r')
    (hu : r.pc.unsent = some id) (hu' : r'.pc.unsent = some id) : i = j := by
  have hn := hsound.accountIds hs
  have hold : ∀ {k : Nat} {x : Request}, s.requests[k]? = some x → x.pc.unsent = some id →
      ¬ ∀ t ∈ s.store.db.transfers, t.id ≠ id := by
    intro k x hx hux hnew
    obtain ⟨-, t, ht⟩ := h.unsent_transfer hx hux
    exact hnew t (Table.lookup_mem ht) (Table.lookup_key ht)
  rcases hstep.unsent_cases hn hr hu with ⟨x, hx, hux⟩ | ⟨hnew, act, ha⟩ <;>
    rcases hstep.unsent_cases hn hr' hu' with ⟨x', hx', hux'⟩ | ⟨hnew', act', ha'⟩
  · exact h.unsent i j x x' id hx hx' hux hux'
  · exact absurd hnew' (hold hx hux)
  · exact absurd hnew (hold hx' hux')
  · rw [ha] at ha'
    cases ha'
    rfl

theorem Owned.calls_step (hs : Seeded db₀) (hsound : Sound db₀ s.store.db) (h : Owned db₀ s)
    (hstep : Step cfg s a s') {c : Nat × String} (hc : c ∈ s'.store.creditCalls) :
    s'.store.db.Submitted c.2 ∧ ∃ r t, s'.requests[c.1]? = some r ∧
      s'.store.db.transfer? c.2 = some t ∧ KeyOf r t ∧ t.Past := by
  have hchange := hstep.change (hsound.accountIds hs)
  have hkeep : ∀ {i : Nat} {id : String} {r : Request} {t : Transfer},
      s.requests[i]? = some r → s.store.db.transfer? id = some t → KeyOf r t → t.Past →
      ∃ r t, s'.requests[i]? = some r ∧ s'.store.db.transfer? id = some t ∧ KeyOf r t ∧ t.Past := by
    intro i id r t hr ht hkey hpast
    obtain ⟨r', hr', huser, hkey', -⟩ := hstep.request_persists hr
    obtain ⟨t', ht', hterms, hadv⟩ := hchange.advance ht
    refine ⟨r', t', hr', ht', ⟨?_, ?_⟩, hadv.past hpast⟩
    · rw [huser]; exact hterms.userId.trans hkey.userId
    · rw [hkey']; exact hterms.idempotencyKey.trans hkey.key
  have hold : c ∈ s.store.creditCalls → s'.store.db.Submitted c.2 ∧ ∃ r t,
      s'.requests[c.1]? = some r ∧ s'.store.db.transfer? c.2 = some t ∧ KeyOf r t ∧ t.Past := by
    intro hc
    obtain ⟨hev, r, t, hr, ht, hkey, hpast⟩ := h.calls c hc
    exact ⟨hchange.submitted_mono hev, hkeep hr ht hkey hpast⟩
  rcases hstep.creditCalls with heq | ⟨i, now, r, record, d, rfl, hr, hpc, heq⟩
  · rw [heq] at hc
    exact hold hc
  · rw [heq, List.mem_append] at hc
    rcases hc with hc | hc
    · exact hold hc
    · obtain rfl := List.mem_singleton.mp hc
      have hsound' := h.pcs i r hr
      rw [hpc] at hsound'
      obtain ⟨-, hev, t, ht, hopen, hpast⟩ := hsound'
      exact ⟨hchange.submitted_mono hev, hkeep hr ht hopen.key hpast⟩

theorem Owned.once_step (h : Owned db₀ s) (hstep : Step cfg s a s') : s'.store.called.Nodup := by
  rcases hstep.creditCalls with heq | ⟨i, now, r, record, d, -, hr, hpc, heq⟩
  · rw [Store.called, heq]
    exact h.once
  · have hnot : d.transferId ∉ s.store.called := (h.unsent_transfer hr (by rw [hpc]; rfl)).1
    rw [Store.called, heq, List.map_append]
    refine List.nodup_append.mpr ⟨h.once, by simp, ?_⟩
    rintro x hx y hy rfl
    obtain rfl : x = d.transferId := by simpa using hy
    exact hnot hx

theorem Owned.attempts_step (h : Owned db₀ s) (hstep : Step cfg s a s') {x : String × Time}
    (hx : x ∈ s'.store.attempts) : x.1 ∈ s'.store.called := by
  rcases hstep.attempts with heq | ⟨i, now, r, record, d, startedAt, -, hr, hpc, -, heq⟩
  · rw [heq] at hx
    exact hstep.called_mono (h.attempts x hx)
  · rw [heq, List.mem_append] at hx
    rcases hx with hx | hx
    · exact hstep.called_mono (h.attempts x hx)
    · obtain rfl := List.mem_singleton.mp hx
      have hsound := h.pcs i r hr
      rw [hpc] at hsound
      exact hstep.called_mono hsound.1

theorem Owned.step (hs : Seeded db₀) (hsound : Sound db₀ s.store.db) (h : Owned db₀ s)
    (hstep : Step cfg s a s') : Owned db₀ s' where
  pcs := fun _ _ hr => h.pcs_step hs hsound hstep hr
  unsent := fun _ _ _ _ _ hr hr' hu hu' => h.unsent_step hs hsound hstep hr hr' hu hu'
  calls := fun _ hc => h.calls_step hs hsound hstep hc
  once := h.once_step hstep
  attempts := fun _ hx => h.attempts_step hstep hx

theorem Initial.owned (h : Initial s) : Owned db₀ s where
  pcs := by simp [h.requests]
  unsent := by simp [h.requests]
  calls := by simp [h.creditCalls]
  once := by simp [Store.called, h.creditCalls]
  attempts := by simp [h.attempts]

/-- Both invariants hold in every reachable state. -/
theorem run_owned {s₀ : State} {as : List Action} (h₀ : Initial s₀)
    (h : Runs.run (LoyaltyTransfer.step cfg) s₀ as = some s) :
    Sound s₀.store.db s.store.db ∧ Owned s₀.store.db s :=
  Runs.run_invariant (I := fun s => Sound s₀.store.db s.store.db ∧ Owned s₀.store.db s)
    (fun _ _ _ hI hstep => ⟨Sound.step h₀.seeded hI.1 hstep,
      hI.2.step h₀.seeded hI.1 (step_inv hstep)⟩)
    ⟨h₀.seeded.sound, h₀.owned⟩ h

end

/-! ## The last-line checks -/

/-- No transaction of the saga or the reconciler, `markSubmitted` apart, raises
a last-line fault from `db`. -/
structure Guarded (cfg : Config) (db : Database) : Prop where
  debit : ∀ now createdAt transferId userId body key, Tx.Avoids Fault.LastLine db
    (openTransfer cfg.maxTransferPoints now createdAt transferId userId body key)
  find : ∀ userId key, Tx.Avoids Fault.LastLine db (findByIdempotencyKey userId key)
  outcome : ∀ now wall transferId result, Tx.Avoids Fault.LastLine db
    (applyPartnerOutcome cfg.verificationDelay now wall transferId result)
  claim : ∀ now batchSize locked,
    Tx.Avoids Fault.LastLine db (claimDue cfg.policy now batchSize locked)
  snapshot : ∀ transferId, Tx.Avoids Fault.LastLine db (snapshot transferId)
  interrupted : ∀ wall transferId, Tx.Avoids Fault.LastLine db (reverseInterrupted wall transferId)
  status : ∀ now wall transferId answer, Tx.Avoids Fault.LastLine db
    (applyStatus cfg.policy now wall transferId answer)

theorem Sound.guarded {cfg : Config} {db₀ db : Database} (h : Sound db₀ db) (hs : Seeded db₀) :
    Guarded cfg db where
  debit := fun _ _ _ _ _ _ => avoids_openTransfer lastLine_rare h hs (by rintro ⟨⟩)
  find := fun _ _ => Tx.avoids_get.bind fun _ _ _ =>
    (Tx.avoids_ofOption (lastLine_rare.runtime _)).bind fun _ _ _ => Tx.avoids_pure _
  outcome := fun _ _ _ _ => avoids_applyPartnerOutcome lastLine_rare.toQuiet h hs
  claim := fun _ _ _ => by
    refine (avoids_dateAdd lastLine_rare.toQuiet _ _).bind fun _ _ _ => ?_
    refine Tx.avoids_get.bind fun _ _ _ => ?_
    dsimp only
    split
    · exact Tx.avoids_pure _
    · refine (avoids_dateAdd lastLine_rare.toQuiet _ _).bind fun _ _ _ => ?_
      exact (Tx.avoids_set _).bind fun _ _ _ => Tx.avoids_pure _
  snapshot := fun _ => Tx.avoids_get.bind fun _ _ _ =>
    (Tx.avoids_ofOption (lastLine_rare.lookup _)).bind fun _ _ _ =>
      (Tx.avoids_ofOption (lastLine_rare.lookup _)).bind fun _ _ _ =>
        (Tx.avoids_ofOption (lastLine_rare.lookup _)).bind fun _ _ _ => Tx.avoids_pure _
  interrupted := fun _ _ => avoids_reverseInterrupted lastLine_rare.toQuiet h hs
  status := fun _ _ _ _ => avoids_applyStatus lastLine_rare.toQuiet h hs

/-- `markSubmitted` raises a last-line fault only when the table has no such
transition. -/
theorem markSubmitted_lastLine {db : Database} {now : Time} {transferId partnerCode : String}
    {f : Fault} (hrun : (markSubmitted now transferId partnerCode).run db = .error f)
    (hf : f.LastLine) :
    ∃ t, db.transfer? transferId = some t ∧ .partnerSubmitted ∉ allowedTransitions t.status ∧
      f = .invalidStateTransition t.id t.status .partnerSubmitted := by
  rcases Tx.bind_error.mp hrun with hlock | ⟨t, _, hlock, hrest⟩
  · exact absurd hf (avoids_lockTransfer lastLine_rare.toQuiet _ f hlock)
  obtain ⟨ht, rfl⟩ := lockTransfer_ok.mp hlock
  rcases Tx.bind_error.mp hrest with htr | ⟨p, db₁, -, hsave⟩
  · rw [Tx.ofExcept_error, transition] at htr
    split at htr
    · cases htr
    · rename_i hno
      cases htr
      exact ⟨t, ht, by simpa [canTransition] using hno, rfl⟩
  · exact absurd hf (avoids_saveTransfer lastLine_rare.toQuiet _ _ _ f hsave)

/-- In every reachable state each transfer has one debit journal, one settlement
journal exactly when COMPLETED and one reversal journal exactly when REVERSED;
and the last-line checks fire in no transaction but the submission of a
transfer the reconciler reversed first. -/
theorem journals_match_status {cfg : Config} {s₀ s : State} {as : List Action} (h₀ : Initial s₀)
    (h : Runs.run (step cfg) s₀ as = some s) :
    (∀ t ∈ s.store.db.transfers,
      s.store.db.journalCount t.id .transferDebit = 1 ∧
      s.store.db.journalCount t.id .transferSettle = (if t.status = .completed then 1 else 0) ∧
      s.store.db.journalCount t.id .transferReversal =
        (if t.status = .reversed then 1 else 0)) ∧
    Guarded cfg s.store.db ∧
    ∀ (i : Nat) (r : Request) (record : Nat) (d : DebitedTransfer) (now : Time) (f : Fault),
      s.requests[i]? = some r → r.pc = .debited record d →
      (markSubmitted now d.transferId d.partnerCode).run s.store.db = .error f → f.LastLine →
      ∃ t, s.store.db.transfer? d.transferId = some t ∧ t.Interrupted ∧
        f = .invalidStateTransition t.id .reversed .partnerSubmitted := by
  obtain ⟨hsound, howned⟩ := run_owned h₀ h
  refine ⟨fun t ht => ⟨hsound.journals t ht _, hsound.journals t ht _, hsound.journals t ht _⟩,
    hsound.guarded h₀.seeded, ?_⟩
  intro i r record d now f hr hpc hrun hf
  obtain ⟨t, ht, hno, rfl⟩ := markSubmitted_lastLine hrun hf
  have hsnd := howned.pcs i r hr
  rw [hpc] at hsnd
  obtain ⟨-, t', ht', -, hst⟩ := hsnd
  rw [ht] at ht'
  cases ht'
  rcases hst with hst | hst
  · exact absurd (by rw [hst]; decide) hno
  · exact ⟨t, ht, hst, by rw [hst.1]⟩

theorem journals_match_status_completedRun :
    ∃ s, Runs.run (step sampleConfig) freshState completedRun = some s ∧
      ∀ t ∈ s.store.db.transfers, s.store.db.journalCount t.id .transferDebit = 1 ∧
        s.store.db.journalCount t.id .transferSettle = (if t.status = .completed then 1 else 0) ∧
        s.store.db.journalCount t.id .transferReversal =
          (if t.status = .reversed then 1 else 0) := by
  obtain ⟨s, hs⟩ := completedRun_runs
  exact ⟨s, hs, (journals_match_status freshState_initial hs).1⟩

/-! ## Interrupted transfers are never sent -/

section

variable {cfg : Config} {s₀ s s' : State} {as bs : List Action}

/-- A stored transfer stays, with its terms; an interrupted one stays
interrupted. -/
theorem run_transfer (h₀ : Initial s₀) (h : Runs.run (step cfg) s₀ as = some s)
    (h' : Runs.run (step cfg) s bs = some s') {t : Transfer} {id : String}
    (ht : s.store.db.transfer? id = some t) :
    ∃ t', s'.store.db.transfer? id = some t' ∧ SameTerms t t' ∧
      (t.Interrupted → t'.Interrupted) := by
  have hI := Runs.run_invariant (I := fun x => Sound s₀.store.db x.store.db ∧
      ∃ t', x.store.db.transfer? id = some t' ∧ SameTerms t t' ∧
        (t.Interrupted → t'.Interrupted))
    (fun x a x' hx hstep => ?_)
    ⟨run_sound h₀ h, t, ht, SameTerms.refl t, fun hi => hi⟩ h'
  · exact hI.2
  · obtain ⟨hsound, t₁, ht₁, hterms, hint⟩ := hx
    have hchange := (step_inv hstep).change (hsound.accountIds h₀.seeded)
    obtain ⟨t₂, ht₂, hterms₂, hadv⟩ := hchange.advance ht₁
    exact ⟨hsound.step h₀.seeded hstep, t₂, ht₂, hterms.trans hterms₂,
      fun hi => hadv.interrupted (hint hi)⟩

theorem markSubmitted_interrupted {db : Database} {transferId : String} {t : Transfer}
    (now : Time) (partnerCode : String) (ht : db.transfer? transferId = some t)
    (hi : t.Interrupted) :
    (markSubmitted now transferId partnerCode).run db =
      .error (.invalidStateTransition t.id .reversed .partnerSubmitted) := by
  refine Tx.bind_error.mpr (.inr ⟨t, db, lockTransfer_ok.mpr ⟨ht, rfl⟩, ?_⟩)
  refine Tx.bind_error.mpr (.inl (Tx.ofExcept_error.mpr ?_))
  simp [transition, canTransition, allowedTransitions, hi.1]

/-- A transfer reversed as interrupted was never sent to the partner and never
will be: the request that stalled fails in `markSubmitted`.  Any transfer is
sent at most once, and only after its submission was committed. -/
theorem interrupted_never_sent (h₀ : Initial s₀) (h : Runs.run (step cfg) s₀ as = some s) :
    (∀ t ∈ s.store.db.transfers, t.Interrupted →
      ∀ bs s', Runs.run (step cfg) s bs = some s' →
        t.id ∉ s'.store.called ∧ ∀ x ∈ s'.store.attempts, x.1 ≠ t.id) ∧
    (∀ (i : Nat) (r : Request) (record : Nat) (d : DebitedTransfer) (t : Transfer) (now : Time),
      s.requests[i]? = some r → r.pc = .debited record d →
      s.store.db.transfer? d.transferId = some t → t.Interrupted →
      step cfg s (.request i (.submit now)) = some { s with
        requests := s.requests.set i { r with
          pc := .releasing record (.invalidStateTransition t.id .reversed .partnerSubmitted) } }) ∧
    s.store.called.Nodup ∧
    ∀ a s', step cfg s a = some s' → ∀ id ∈ s'.store.called, id ∉ s.store.called →
      s.store.db.Submitted id := by
  obtain ⟨hsound, howned⟩ := run_owned h₀ h
  refine ⟨?_, ?_, howned.once, ?_⟩
  · intro t ht hi bs s' hbs
    have hcalled : t.id ∉ s'.store.called := by
      intro hc
      obtain ⟨t', ht', -, hi'⟩ := run_transfer h₀ h hbs
        (Table.lookup_of_mem hsound.transferIds ht)
      obtain ⟨-, howned'⟩ := run_owned h₀ (Runs.run_append.mpr ⟨s, h, hbs⟩)
      obtain ⟨c, hc, hcid⟩ := List.mem_map.mp hc
      obtain ⟨-, _, t'', -, ht'', -, hpast⟩ := howned'.calls c hc
      rw [hcid, ht'] at ht''
      cases ht''
      exact hpast.2 (hi' hi)
    obtain ⟨-, howned'⟩ := run_owned h₀ (Runs.run_append.mpr ⟨s, h, hbs⟩)
    exact ⟨hcalled, fun x hx heq => hcalled (heq ▸ howned'.attempts x hx)⟩
  · intro i r record d t now hr hpc ht hi
    have hcommit := Tx.commit_error
      (markSubmitted_interrupted now d.partnerCode ht hi)
    simp only [step, hr, requestStep, hpc, afterTx, hcommit, handlerRaised, Option.map_some]
  · intro a s' hstep id hid hnot
    rcases (step_inv hstep).creditCalls with heq | ⟨i, now, r, record, d, rfl, hr, hpc, heq⟩
    · rw [Store.called, heq] at hid
      exact absurd hid hnot
    · rw [Store.called, heq, List.map_append, List.mem_append] at hid
      rcases hid with hid | hid
      · exact absurd hid hnot
      · obtain rfl : id = d.transferId := by simpa using hid
        have hsnd := howned.pcs i r hr
        rw [hpc] at hsnd
        exact hsnd.2.1

/-- A request that stalls between its debit and its submission, for longer than
the stuck window, while a reconciler looks at its transfer. -/
def interruptedRun : List Action :=
  admission 0 "user_alice" "key-1" sampleBody 5 ++
    [.request 0 (.debit 5 5 sampleTransferId), .startReconcile sampleTransferId,
      .reconcile 0 .snapshot, .reconcile 0 (.decide 65), .reconcile 0 (.reverse 65)]

theorem interruptedRun_runs :
    (Runs.run (step sampleConfig) freshState interruptedRun).any (fun s =>
      decide (∃ t ∈ s.store.db.transfers, t.id = sampleTransferId ∧ t.status = .reversed ∧
        t.failureCode = some .transferInterrupted)) = true := by
  decide +kernel

theorem interrupted_never_sent_interruptedRun :
    ∃ s, Runs.run (step sampleConfig) freshState interruptedRun = some s ∧
      (∃ t ∈ s.store.db.transfers, t.id = sampleTransferId ∧ t.Interrupted) ∧
      ∀ bs s', Runs.run (step sampleConfig) s bs = some s' →
        sampleTransferId ∉ s'.store.called := by
  obtain ⟨s, hs, hany⟩ := (Option.any_eq_true _ _).mp interruptedRun_runs
  obtain ⟨t, ht, hid, hi⟩ := of_decide_eq_true hany
  refine ⟨s, hs, ⟨t, ht, hid, hi⟩, fun bs s' hbs => ?_⟩
  rw [← hid]
  exact ((interrupted_never_sent freshState_initial hs).1 t ht hi bs s' hbs).1

/-! ## One transfer per key -/

/-- The debit journals of the transfers with this user and key. -/
def Database.debitsFor (db : Database) (userId key : String) : Nat :=
  db.ledgerJournals.countP fun j => decide (j.journalType = .transferDebit ∧
    ∃ t ∈ db.transfers, t.userId = userId ∧ t.idempotencyKey = key ∧ j.transferId = some t.id)

theorem Sound.eq_of_key {db₀ db : Database} (h : Sound db₀ db) {t t' : Transfer}
    (ht : t ∈ db.transfers) (ht' : t' ∈ db.transfers) (huser : t.userId = t'.userId)
    (hkey : t.idempotencyKey = t'.idempotencyKey) : t = t' := by
  by_contra hne
  have : Std.Symm fun x y : Transfer =>
      ¬ (x.userId = y.userId ∧ x.idempotencyKey = y.idempotencyKey) :=
    ⟨fun _ _ hxy hyx => hxy ⟨hyx.1.symm, hyx.2.symm⟩⟩
  exact h.transferKeys.forall ht ht' hne ⟨huser, hkey⟩

theorem length_le_one {α : Type} {R : α → α → Prop} {xs : List α} (hp : xs.Pairwise R)
    (hno : ∀ x ∈ xs, ∀ y ∈ xs, ¬ R x y) : xs.length ≤ 1 := by
  match xs, hp, hno with
  | [], _, _ => simp
  | [_], _, _ => simp
  | x :: y :: _, hp, hno =>
      exact absurd (List.rel_of_pairwise_cons hp (by simp)) (hno x (by simp) y (by simp))

theorem Sound.debitsFor_le_one {db₀ db : Database} (h : Sound db₀ db) (userId key : String) :
    db.debitsFor userId key ≤ 1 := by
  by_cases hex : ∃ t ∈ db.transfers, t.userId = userId ∧ t.idempotencyKey = key
  · obtain ⟨t, ht, huser, hkey⟩ := hex
    have hone : db.journalCount t.id .transferDebit = 1 := h.journals t ht .transferDebit
    rw [← hone]
    refine List.countP_mono_left fun j _ hj => ?_
    simp only [decide_eq_true_eq] at hj ⊢
    obtain ⟨hty, t', ht', huser', hkey', hid⟩ := hj
    obtain rfl := h.eq_of_key ht ht' (huser.trans huser'.symm) (hkey.trans hkey'.symm)
    exact ⟨hid, hty⟩
  · rw [Database.debitsFor, List.countP_eq_zero.mpr]
    · exact Nat.zero_le 1
    · intro j _ hj
      simp only [decide_eq_true_eq] at hj
      obtain ⟨-, t, ht, huser, hkey, -⟩ := hj
      exact hex ⟨t, ht, huser, hkey⟩

theorem Owned.caller_unique (hsound : Sound s₀.store.db s.store.db) (h : Owned s₀.store.db s)
    {c c' : Nat × String} (hc : c ∈ s.store.creditCalls) (hc' : c' ∈ s.store.creditCalls)
    {r r' : Request} (hr : s.requests[c.1]? = some r) (hr' : s.requests[c'.1]? = some r')
    (huser : r.userId = r'.userId) (hkey : r.key = r'.key) : c = c' := by
  obtain ⟨-, x, t, hx, ht, hxt, -⟩ := h.calls c hc
  obtain ⟨-, x', t', hx', ht', hxt', -⟩ := h.calls c' hc'
  rw [hr] at hx
  cases hx
  rw [hr'] at hx'
  cases hx'
  have heq : t = t' := hsound.eq_of_key (Table.lookup_mem ht) (Table.lookup_mem ht')
    (hxt.userId.trans (huser.trans hxt'.userId.symm)) (hxt.key.trans (hkey.trans hxt'.key.symm))
  refine List.inj_on_of_nodup_map h.once hc hc' ?_
  rw [← show t.id = c.2 from Table.lookup_key ht,
    ← show t'.id = c'.2 from Table.lookup_key ht', heq]

/-- The loser of a race for the key finds the transfer that has it. -/
theorem Owned.find_step (hsound : Sound s₀.store.db s.store.db) (h : Owned s₀.store.db s)
    {i : Nat} {r : Request} {record : Nat} (hr : s.requests[i]? = some r)
    (hpc : r.pc = .collided record) :
    ∃ t ∈ s.store.db.transfers, t.userId = r.userId ∧ t.idempotencyKey = r.key ∧
      LoyaltyTransfer.step cfg s (.request i .find) =
        some { s with requests := s.requests.set i { r with pc := .created record t.id } } := by
  have hsnd := h.pcs i r hr
  rw [hpc] at hsnd
  obtain ⟨id, t, ht, hkey⟩ := hsnd
  have hmem := Table.lookup_mem ht
  have hfind : s.store.db.transferByKey? r.userId r.key = some t := by
    cases hf : s.store.db.transferByKey? r.userId r.key with
    | none =>
        have := List.find?_eq_none.mp hf t hmem
        simp [hkey.userId, hkey.key] at this
    | some x =>
        have hx := List.find?_some hf
        simp only [decide_eq_true_eq] at hx
        rw [hsound.eq_of_key (List.mem_of_find?_eq_some hf) hmem (hx.1.trans hkey.userId.symm)
          (hx.2.trans hkey.key.symm)]
  have hcommit := Tx.commit_ok (findByIdempotencyKey_ok.mpr ⟨t, hfind, rfl, rfl⟩)
  refine ⟨t, hmem, hkey.userId, hkey.key, ?_⟩
  simp only [LoyaltyTransfer.step, hr, requestStep, hpc, afterTx, hcommit, Option.map_some]

/-- Whatever happens to the key's lock and row, a user's key has one transfer,
one debit and one request that calls the partner; a request that loses the race
changes nothing and goes on with the transfer that is there. -/
theorem one_transfer_per_key (h₀ : Initial s₀) (h : Runs.run (step cfg) s₀ as = some s) :
    (∀ t ∈ s.store.db.transfers, ∀ bs s', Runs.run (step cfg) s bs = some s' →
      ∀ t' ∈ s'.store.db.transfers, t'.userId = t.userId →
        t'.idempotencyKey = t.idempotencyKey → t'.id = t.id) ∧
    (∀ userId key, (s.store.db.transfers.filter fun t =>
      decide (t.userId = userId ∧ t.idempotencyKey = key)).length ≤ 1) ∧
    (∀ userId key, s.store.db.debitsFor userId key ≤ 1) ∧
    (∀ c ∈ s.store.creditCalls, ∀ c' ∈ s.store.creditCalls, ∀ r r',
      s.requests[c.1]? = some r → s.requests[c'.1]? = some r' →
      r.userId = r'.userId → r.key = r'.key → c = c') ∧
    (∀ i now createdAt transferId s' r record,
      step cfg s (.request i (.debit now createdAt transferId)) = some s' →
      s'.requests[i]? = some r → r.pc = .collided record → s'.store = s.store) ∧
    ∀ (i : Nat) r record, s.requests[i]? = some r → r.pc = .collided record →
      ∃ t ∈ s.store.db.transfers, t.userId = r.userId ∧ t.idempotencyKey = r.key ∧
        step cfg s (.request i .find) =
          some { s with requests := s.requests.set i { r with pc := .created record t.id } } := by
  obtain ⟨hsound, howned⟩ := run_owned h₀ h
  refine ⟨?_, ?_, hsound.debitsFor_le_one, ?_, ?_, ?_⟩
  · intro t ht bs s' hbs t' ht' huser hkey
    obtain ⟨t₁, ht₁, hterms, -⟩ := run_transfer h₀ h hbs (Table.lookup_of_mem hsound.transferIds ht)
    have hsound' := run_sound h₀ (Runs.run_append.mpr ⟨s, h, hbs⟩)
    have heq := hsound'.eq_of_key ht' (Table.lookup_mem ht₁) (huser.trans hterms.userId.symm)
      (hkey.trans hterms.idempotencyKey.symm)
    rw [heq, hterms.id]
  · intro userId key
    refine length_le_one (hsound.transferKeys.filter _) fun x hx y hy hno => hno ?_
    have hx := (List.mem_filter.mp hx).2
    have hy := (List.mem_filter.mp hy).2
    simp only [decide_eq_true_eq] at hx hy
    exact ⟨hx.1.trans hy.1.symm, hx.2.trans hy.2.symm⟩
  · intro c hc c' hc' r r' hr hr' huser hkey
    exact howned.caller_unique hsound hc hc' hr hr' huser hkey
  · intro i now createdAt transferId s' r record hstep hr hpc
    rcases (step_inv hstep).story hr with ⟨-, hother⟩ | ⟨ha, -, -⟩ | ⟨ha, -, hm, rfl⟩
    · exact absurd rfl (hother _)
    · cases ha
    · cases ha
      generalize s'.store = st' at hm ⊢
      cases hm with
      | debited => cases hpc
      | collided => rfl
      | debitRaised => rfl
  · intro i r record hr hpc
    exact howned.find_step hsound hr hpc

/-- Two requests with one key, both admitted: the second after the first one's
key row was released. -/
def collidedRun : List Action :=
  admission 0 "user_alice" "key-1" sampleBody 5 ++
    [.request 0 (.debit 5 5 sampleTransferId), .request 0 (.fault "connection lost"),
      .request 0 .release] ++
    admission 1 "user_alice" "key-1" sampleBody 8 ++
    [.request 1 (.debit 8 8 "tr_00000000000000000000000002")]

theorem collidedRun_runs :
    (Runs.run (step sampleConfig) freshState collidedRun).any (fun s =>
      (s.requests[1]?).any fun r => match r.pc with | .collided _ => true | _ => false) = true := by
  decide +kernel

theorem one_transfer_per_key_collidedRun :
    ∃ s r record, Runs.run (step sampleConfig) freshState collidedRun = some s ∧
      s.requests[1]? = some r ∧ r.pc = .collided record ∧
      ∃ t ∈ s.store.db.transfers, t.userId = r.userId ∧ t.idempotencyKey = r.key ∧
        step sampleConfig s (.request 1 .find) =
          some { s with requests := s.requests.set 1 { r with pc := .created record t.id } } := by
  obtain ⟨s, hs, hany⟩ := (Option.any_eq_true _ _).mp collidedRun_runs
  obtain ⟨r, hr, hpc⟩ := (Option.any_eq_true _ _).mp hany
  split at hpc
  · rename_i record hcol
    exact ⟨s, r, record, hs, hr, hcol,
      (one_transfer_per_key freshState_initial hs).2.2.2.2.2 1 r record hr hcol⟩
  · cases hpc

end

end LoyaltyTransfer
