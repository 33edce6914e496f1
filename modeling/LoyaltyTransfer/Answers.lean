/-
# `LoyaltyTransfer.Answers` — what a client may conclude from an answer

Two things the API says of its answers to `POST /v1/transfers`: a 4xx means
that nothing was created, and a 2xx describes the transfer that was asked for.
Both rest on the idempotency row, which lives shorter than the transfer it
stands for, and each has a gap:

    4xx   a retry is priced and checked before the unique index tells it that
          its key already has a transfer
    2xx   once the row is gone, a request that collides with the transfer of its
          key is answered with it, whatever its own body says

**Proved here.**  In every run that stays out of its gap, each holds
(`rejected_nothing_created`, `answer_describes_request`); and a run into each
gap breaks it (`rejected_but_created`, `answer_of_another_request`).
-/
import LoyaltyTransfer.Ownership
import LoyaltyTransfer.Fingerprints

namespace LoyaltyTransfer

open Transaction

/-! ## The row a request works under -/

/-- The id of the request's idempotency row. -/
def RequestPc.record? : RequestPc → Option Nat
  | .admitted record | .debited record _ | .collided record | .submitted record _
  | .calling record _ _ | .answered record _ _ | .created record _ | .storing record _ _ _
  | .releasing record _ => some record
  | _ => none

/-- The row, while it lasts, is the request's own. -/
structure Keyed (cfg : Config) (s : State) : Prop where
  sound : s.store.keys.Sound
  begins : ∀ (i : Nat) r result, s.requests[i]? = some r → r.pc ≠ .beginning (.finished result)
  records : ∀ (i : Nat) r record, s.requests[i]? = some r → r.pc.record? = some record →
    record < s.store.keys.nextId ∧
      ∀ row ∈ s.store.keys.rows, row.id = record → row.userId = r.userId ∧ row.key = r.key ∧
        row.requestFingerprint = cfg.fingerprint r.body

section

variable {cfg : Config} {s s' : State} {a : Action}

theorem Step.keyChange (h : Step cfg s a s') : KeyChange s.store.keys s'.store.keys := by
  cases h with
  | request hr hm =>
      cases hm with
      | statement hpc hb => exact beginStep_change hb
      | store => exact .completed _ _ _ _
      | release => exact release_change _
      | _ => exact .none
  | reconcile hp hm => cases hm <;> exact .none
  | cleanup => exact cleanup_change _ _ _
  | _ => exact .none

/-- Where a row comes from: it was there, a `begin` inserted it, or the request
that holds it stored its response. -/
theorem Step.row_cases (h : Step cfg s a s') {row : IdempotencyKey ResponseBody}
    (hrow : row ∈ s'.store.keys.rows) :
    row ∈ s.store.keys.rows ∨
      (∃ i r input now, a = .request i (.statement input) ∧ s.requests[i]? = some r ∧
        row = s.store.keys.newRow cfg.ttls r.userId r.key (cfg.fingerprint r.body) now) ∨
      ∃ i r record statusCode body resourceId row₀, a = .request i .store ∧
        s.requests[i]? = some r ∧ r.pc = .storing record statusCode body resourceId ∧
        row₀ ∈ s.store.keys.rows ∧ row₀.id = record ∧
        row = row₀.answered statusCode body resourceId := by
  cases h with
  | request hr hm =>
      cases hm with
      | statement hpc hb =>
          rcases mem_beginStep hb hrow with hrow | ⟨now, rfl⟩
          · exact .inl hrow
          · exact .inr (.inl ⟨_, _, _, now, rfl, hr, rfl⟩)
      | store hpc =>
          rcases mem_complete hrow with hrow | ⟨row₀, hrow₀, hid, -, rfl⟩
          · exact .inl hrow
          · exact .inr (.inr ⟨_, _, _, _, _, _, row₀, rfl, hr, hpc, hrow₀, hid, rfl⟩)
      | release => exact .inl (List.mem_filter.mp hrow).1
      | _ => exact .inl hrow
  | reconcile hp hm => cases hm <;> exact .inl hrow
  | cleanup => exact .inl (List.mem_filter.mp hrow).1
  | _ => exact .inl hrow

/-! ### Where the record of a request comes from -/

theorem handlerRaised_record (record : Nat) (f : Fault) :
    (handlerRaised record f).record? = some record := by
  cases f with
  | domain e =>
      simp only [handlerRaised]
      split <;> rfl
  | _ => rfl

theorem detailsPc_record (db : Database) (userId : String) (record : Nat) (transferId : String) :
    (detailsPc db userId record transferId).record? = some record := by
  simp only [detailsPc]
  split <;> rfl

theorem faulted_record {f : Fault} {pc pc' : RequestPc} (h : faulted f pc = some pc')
    {record : Nat} (hrec : pc'.record? = some record) : pc.record? = some record := by
  cases pc <;> cases h <;> first | exact hrec | cases hrec

theorem beginPc_record {ttls : KeyTtls} {userId key fingerprint : String}
    {table table' : KeyTable ResponseBody} {input : BeginInput} {pc pc' : BeginPc ResponseBody}
    (hpc : ∀ r, pc ≠ .finished r)
    (h : beginStep ttls userId key fingerprint input table pc = (table', pc'))
    {record : Nat} (hrec : (beginPc pc').record? = some record) :
    ∃ now, record = table.nextId ∧
      table' = ⟨table.rows ++ [table.newRow ttls userId key fingerprint now],
        table.nextId + 1⟩ := by
  cases pc' with
  | finished result =>
      cases beginStep_finished hpc h with
      | @new now hload htable hresult =>
          subst hresult
          cases hrec
          exact ⟨now, rfl, htable⟩
      | @replayed row hload hfp hdone htable hresult =>
          subst hresult
          simp only [beginPc, afterBegin, replay] at hrec
          split at hrec <;> cases hrec
      | refused htable hresult => rcases hresult with rfl | rfl <;> cases hrec
  | _ => cases hrec

/-- A move keeps the record, or is the INSERT that makes it. -/
theorem RequestMove.record {i : Nat} {r : Request} {st st' : Store} {act : RequestAction}
    {pc : RequestPc} (hbegin : ∀ result, r.pc ≠ .beginning (.finished result))
    (hm : RequestMove cfg i r st act st' pc) {record : Nat} (hrec : pc.record? = some record) :
    r.pc.record? = some record ∨
      ∃ now, record = st.keys.nextId ∧ st'.keys =
        ⟨st.keys.rows ++ [st.keys.newRow cfg.ttls r.userId r.key (cfg.fingerprint r.body) now],
          st.keys.nextId + 1⟩ := by
  cases hm with
  | statement hpc hb =>
      refine .inr (beginPc_record ?_ hb hrec)
      rintro result rfl
      exact hbegin result hpc
  | debited hpc => rw [hpc]; exact .inl hrec
  | collided hpc => rw [hpc]; exact .inl hrec
  | debitRaised hpc => rw [hpc]; rw [handlerRaised_record] at hrec; exact .inl hrec
  | found hpc => rw [hpc]; exact .inl hrec
  | findRaised hpc => rw [hpc]; rw [handlerRaised_record] at hrec; exact .inl hrec
  | submitted hpc => rw [hpc]; exact .inl hrec
  | submitRaised hpc => rw [hpc]; rw [handlerRaised_record] at hrec; exact .inl hrec
  | call hpc => rw [hpc]; exact .inl hrec
  | attempt => exact .inl hrec
  | answer hpc => rw [hpc]; exact .inl hrec
  | recorded hpc => rw [hpc]; exact .inl hrec
  | recordRaised hpc => rw [hpc]; rw [handlerRaised_record] at hrec; exact .inl hrec
  | details hpc => rw [hpc]; rw [detailsPc_record] at hrec; exact .inl hrec
  | store => cases hrec
  | release => cases hrec
  | fault h => exact .inl (faulted_record h hrec)
  | crash => cases hrec

/-- Only a statement leaves a request in its `begin`, and never at its end. -/
theorem RequestMove.not_finished {i : Nat} {r : Request} {st st' : Store} {act : RequestAction}
    {pc : RequestPc} (hm : RequestMove cfg i r st act st' pc) (result : BeginResult ResponseBody) :
    pc ≠ .beginning (.finished result) := by
  have hidle : ∀ record f, handlerRaised record f ≠ .beginning (.finished result) := by
    intro record f heq
    have := handlerRaised_record record f
    rw [heq] at this
    cases this
  cases hm with
  | @statement _ _ pc' _ _ _ =>
      cases pc' with
      | finished res =>
          simp only [beginPc, afterBegin]
          repeat' split
          all_goals
            intro h
            cases h
      | _ =>
          intro h
          cases h
  | debitRaised => exact hidle _ _
  | findRaised => exact hidle _ _
  | submitRaised => exact hidle _ _
  | recordRaised => exact hidle _ _
  | attempt hpc =>
      rw [hpc]
      intro h
      cases h
  | details =>
      simp only [detailsPc]
      split <;> simp
  | fault h =>
      cases hpc : r.pc <;> rw [hpc] at h <;> cases h <;> simp
  | _ =>
      intro h
      cases h

theorem Keyed.step (h : Keyed cfg s) (hstep : Step cfg s a s') : Keyed cfg s' where
  sound := h.sound.change hstep.keyChange
  begins := by
    intro j r' result hr'
    rcases hstep.story hr' with ⟨hr, -⟩ | ⟨-, -, rfl⟩ | ⟨rfl, hr, hm, rfl⟩
    · exact h.begins j r' result hr
    · intro h
      cases h
    · exact hm.not_finished result
  records := by
    intro j r' record hr' hrec
    have hle := hstep.keyChange.nextId_le
    -- what was known of an old record still holds of every row there is now
    have hold : ∀ r, s.requests[j]? = some r → r.pc.record? = some record →
        record < s'.store.keys.nextId ∧ ∀ row ∈ s'.store.keys.rows, row.id = record →
          row.userId = r.userId ∧ row.key = r.key ∧
            row.requestFingerprint = cfg.fingerprint r.body := by
      intro r hr hrec
      obtain ⟨hlt, hrows⟩ := h.records j r record hr hrec
      refine ⟨lt_of_lt_of_le hlt hle, ?_⟩
      intro row hrow hid
      rcases hstep.row_cases hrow with hrow | ⟨_, _, _, _, -, -, rfl⟩ |
        ⟨_, _, _, _, _, _, row₀, -, -, -, hrow₀, -, rfl⟩
      · exact hrows row hrow hid
      · exact absurd hid (by simpa [KeyTable.newRow] using (Nat.ne_of_lt hlt).symm)
      · exact hrows row₀ hrow₀ hid
    rcases hstep.story hr' with ⟨hr, -⟩ | ⟨-, -, rfl⟩ | ⟨rfl, hr, hm, rfl⟩
    · exact hold r' hr hrec
    · cases hrec
    · rcases hm.record (fun result => h.begins j _ result hr) hrec with hrec | ⟨now, rfl, hkeys⟩
      · obtain ⟨hlt, hrows⟩ := hold _ hr hrec
        exact ⟨hlt, hrows⟩
      · rw [hkeys]
        refine ⟨Nat.lt_succ_self _, ?_⟩
        intro row hrow hid
        rcases List.mem_append.mp hrow with hrow | hrow
        · exact absurd hid (Nat.ne_of_lt (h.sound.below row hrow))
        · rw [List.mem_singleton.mp hrow]
          exact ⟨rfl, rfl, rfl⟩

theorem Initial.keyed (h : Initial s) : Keyed cfg s where
  sound := ⟨by simp [h.keys], by simp [h.keys], by simp [h.keys]⟩
  begins := by simp [h.requests]
  records := by simp [h.requests]

end

/-! ## Rejections -/

/-- The key has created a transfer. -/
def Database.HasTransfer (db : Database) (userId key : String) : Prop :=
  ∃ t ∈ db.transfers, t.userId = userId ∧ t.idempotencyKey = key

/-- A rejection of a request with this key waits to be sent, or is stored and
will be replayed. -/
def State.RejectionOpen (s : State) (userId key : String) : Prop :=
  (∃ (i : Nat) (r : Request) (record statusCode : Nat) (e : DomainError)
    (resourceId : Option String), s.requests[i]? = some r ∧ r.userId = userId ∧ r.key = key ∧
      r.pc = .storing record statusCode (.problem e) resourceId) ∨
  ∃ row ∈ s.store.keys.rows, row.userId = userId ∧ row.key = key ∧
    ∃ e, row.responseBody = some (.problem e)

/-- The debit stays out of the gap: a retry of a key that has a transfer passes
the checks made before its INSERT, and a debit that goes on to create the
transfer does so while no rejection of its key is open. -/
def RejectsOnlyNew (cfg : Config) (s : State) (a : Action) : Prop :=
  ∀ (i : Nat) now createdAt transferId r record,
    a = .request i (.debit now createdAt transferId) → s.requests[i]? = some r →
    r.pc = .admitted record →
    (s.store.db.HasTransfer r.userId r.key →
      Passes cfg.maxTransferPoints s.store.db now r.userId r.body) ∧
    (¬ s.store.db.HasTransfer r.userId r.key →
      Passes cfg.maxTransferPoints s.store.db now r.userId r.body →
      ¬ s.RejectionOpen r.userId r.key)

section

variable {cfg : Config} {db₀ : Database} {s s' : State} {a : Action}

/-- A debit that passes its checks and finds its key taken fails at the INSERT,
not with a business error. -/
theorem Passes.avoids_business {db : Database} (h : Sound db₀ db) (hs : Seeded db₀)
    {now createdAt : Time} {transferId userId key : String} {body : TransferRequest}
    (hp : Passes cfg.maxTransferPoints db now userId body) (hkey : db.HasTransfer userId key) :
    Tx.Avoids Fault.Business db
      (openTransfer cfg.maxTransferPoints now createdAt transferId userId body key) := by
  obtain ⟨hdiff, hlimit, terms, hpriced⟩ := hp
  obtain ⟨x, hx, hxk⟩ := hkey
  have hdiff : (Tx.ofExcept ((ensureDifferentPrograms body.sourceProgram
      body.destinationProgram).mapError Fault.domain) : DbTx Unit).run db = .ok ((), db) :=
    Tx.ofExcept_ok.mpr ⟨(), mapError_ok.mpr hdiff, rfl⟩
  have hlimit : (Tx.ofExcept ((ensureWithinPlatformLimit body.sourcePoints
      cfg.maxTransferPoints).mapError Fault.domain) : DbTx Unit).run db = .ok ((), db) :=
    Tx.ofExcept_ok.mpr ⟨(), mapError_ok.mpr hlimit, rfl⟩
  have hterms := (debitTerms_ok (h.accountIds hs)).mpr ⟨hpriced, rfl⟩
  refine (Tx.Avoids.of_ok hdiff).bind fun _ _ hrun => ?_
  rw [hdiff] at hrun
  cases hrun
  refine (Tx.Avoids.of_ok hlimit).bind fun _ _ hrun => ?_
  rw [hlimit] at hrun
  cases hrun
  refine (Tx.Avoids.of_ok hterms).bind fun _ _ hrun => ?_
  rw [hterms] at hrun
  cases hrun
  refine Tx.Avoids.bind ?_ fun _ _ _ => Tx.avoids_pure _
  refine (avoids_beginAt _).bind fun _ _ hrun => ?_
  obtain rfl := beginAt_ok.mp hrun
  refine (avoids_insertTransfer business_quiet _ (by rintro ⟨_, ⟨⟩⟩)).bind fun _ _ hrun => ?_
  exact absurd hxk ((insertTransfer_ok.mp hrun).1.key x hx)

theorem avoids_business_find {db : Database} (userId key : String) :
    Tx.Avoids Fault.Business db (findByIdempotencyKey userId key) :=
  Tx.avoids_get.bind fun _ _ _ =>
    (Tx.avoids_ofOption (business_quiet.runtime _)).bind fun _ _ _ => Tx.avoids_pure _

theorem avoids_business_submit {db : Database} (now : Time) (transferId partnerCode : String) :
    Tx.Avoids Fault.Business db (markSubmitted now transferId partnerCode) := by
  refine (avoids_lockTransfer business_quiet _).bind fun t _ _ => ?_
  refine (Tx.avoids_ofExcept fun e he => ?_).bind fun _ _ _ =>
    avoids_saveTransfer business_quiet _ _ _
  simp only [transition] at he
  split at he
  · cases he
  · cases he
    rintro ⟨_, h⟩
    cases h

/-- A request turns to a rejection only when its debit raises a business
error. -/
theorem RequestMove.rejects {i : Nat} {r : Request} {st st' : Store} {act : RequestAction}
    {pc : RequestPc} (hs : Seeded db₀) (h : Sound db₀ st.db)
    (hm : RequestMove cfg i r st act st' pc) {record statusCode : Nat} {e : DomainError}
    {resourceId : Option String} (hpc : pc = .storing record statusCode (.problem e) resourceId) :
    st' = st ∧ ∃ now createdAt transferId record, act = .debit now createdAt transferId ∧
      r.pc = .admitted record ∧
      (openTransfer cfg.maxTransferPoints now createdAt transferId r.userId r.body r.key).run
        st.db = .error (.domain e) := by
  have hraised : ∀ {record' f}, handlerRaised record' f = .storing record statusCode (.problem e)
      resourceId → f = .domain e := by
    intro record' f heq
    cases f with
    | domain e' =>
        simp only [handlerRaised] at heq
        split at heq <;> cases heq
        rfl
    | _ => cases heq
  cases hm with
  | @statement _ _ pc' _ _ _ =>
      exfalso
      cases pc' with
      | finished result =>
          simp only [beginPc, afterBegin] at hpc
          repeat' split at hpc
          all_goals cases hpc
      | _ => cases hpc
  | debitRaised hadm hrun =>
      cases hraised hpc
      exact ⟨rfl, _, _, _, _, rfl, hadm, hrun⟩
  | findRaised hcol hrun =>
      cases hraised hpc
      exact absurd ⟨e, rfl⟩ (avoids_business_find _ _ _ hrun)
  | submitRaised hdeb hrun =>
      cases hraised hpc
      exact absurd ⟨e, rfl⟩ (avoids_business_submit _ _ _ _ hrun)
  | recordRaised hans hrun =>
      cases hraised hpc
      exact absurd ⟨e, rfl⟩ (avoids_applyPartnerOutcome business_quiet h hs _ hrun)
  | details =>
      simp only [detailsPc] at hpc
      split at hpc <;> cases hpc
  | attempt hcalling => rw [hcalling] at hpc; cases hpc
  | fault hf =>
      cases hp : r.pc <;> rw [hp] at hf <;> cases hf <;> cases hpc
  | _ => cases hpc

/-- A key that has a transfer after a step had one before, or the step was the
debit that opened it. -/
theorem Step.hasTransfer (hs : Seeded db₀) (h : Sound db₀ s.store.db) (hstep : Step cfg s a s')
    {userId key : String} (hhas : s'.store.db.HasTransfer userId key) :
    s.store.db.HasTransfer userId key ∨
      ∃ (i : Nat) (r : Request) (record : Nat) (now createdAt : Time) (transferId : String),
        a = .request i (.debit now createdAt transferId) ∧
        s.requests[i]? = some r ∧ r.pc = .admitted record ∧ r.userId = userId ∧ r.key = key ∧
        Passes cfg.maxTransferPoints s.store.db now r.userId r.body := by
  have hchange := hstep.change (h.accountIds hs)
  have hsound' := h.change hs hchange
  obtain ⟨t', ht', huser, hkey⟩ := hhas
  by_cases hold : ∃ t ∈ s.store.db.transfers, t.id = t'.id
  · obtain ⟨t, ht, hid⟩ := hold
    obtain ⟨x, hx, hterms, -⟩ := hchange.advance (Table.lookup_of_mem h.transferIds ht)
    obtain rfl : x = t' := Table.eq_of_key_eq hsound'.transferIds (Table.lookup_mem hx) ht'
      ((Table.lookup_key hx).trans hid)
    exact .inl ⟨t, ht, hterms.userId.symm.trans huser, hterms.idempotencyKey.symm.trans hkey⟩
  · have hnew : ∀ y ∈ s.store.db.transfers, y.id ≠ t'.id := fun y hy heq => hold ⟨y, hy, heq⟩
    obtain ⟨⟨i, r, record, now, rfl, hr, hpc, hru, hrk, hp⟩, -⟩ := hchange.opened_of_new ht' hnew
    exact .inr ⟨i, r, record, now, _, _, rfl, hr, hpc, hru.symm.trans huser, hrk.symm.trans hkey,
      hp⟩

/-- An open rejection was open before, or the step was a debit of its key that
raised a business error. -/
theorem Step.rejectionOpen (hs : Seeded db₀) (h : Sound db₀ s.store.db) (hkeyed : Keyed cfg s)
    (hstep : Step cfg s a s') {userId key : String} (hopen : s'.RejectionOpen userId key) :
    s.RejectionOpen userId key ∨
      (s'.store = s.store ∧ ∃ (i : Nat) (r : Request) (record : Nat) (now createdAt : Time)
        (transferId : String) (e : DomainError), a = .request i (.debit now createdAt transferId) ∧
        s.requests[i]? = some r ∧ r.pc = .admitted record ∧ r.userId = userId ∧ r.key = key ∧
        (openTransfer cfg.maxTransferPoints now createdAt transferId r.userId r.body r.key).run
          s.store.db = .error (.domain e)) := by
  rcases hopen with ⟨j, r', record, statusCode, e, resourceId, hr', huser, hkey, hpc⟩ |
    ⟨row, hrow, huser, hkey, e, hbody⟩
  · rcases hstep.story hr' with ⟨hr, -⟩ | ⟨-, -, rfl⟩ | ⟨rfl, hr, hm, rfl⟩
    · exact .inl (.inl ⟨j, r', record, statusCode, e, resourceId, hr, huser, hkey, hpc⟩)
    · cases hpc
    · obtain ⟨hst, now, createdAt, transferId, record, rfl, hadm, hrun⟩ := hm.rejects hs h hpc
      exact .inr ⟨hst, j, _, record, now, createdAt, transferId, e, rfl, hr, hadm, huser, hkey,
        hrun⟩
  · rcases hstep.row_cases hrow with hrow | ⟨_, _, _, _, -, -, rfl⟩ |
      ⟨i, r, record, statusCode, body, resourceId, row₀, rfl, hr, hpc, hrow₀, hid, rfl⟩
    · exact .inl (.inr ⟨row, hrow, huser, hkey, e, hbody⟩)
    · cases hbody
    · -- the request that stored it had the rejection open
      obtain ⟨hru, hrk, -⟩ := (hkeyed.records i r record hr (by rw [hpc]; rfl)).2 row₀ hrow₀ hid
      have hbody : body = .problem e := Option.some.inj hbody
      rw [hbody] at hpc
      exact .inl (.inl ⟨i, r, record, statusCode, e, resourceId, hr, hru.symm.trans huser,
        hrk.symm.trans hkey, hpc⟩)

/-- While a rejection is open its key has no transfer. -/
def NothingCreated (s : State) : Prop :=
  ∀ userId key, s.RejectionOpen userId key → ¬ s.store.db.HasTransfer userId key

theorem NothingCreated.step (hs : Seeded db₀) (h : Sound db₀ s.store.db) (hkeyed : Keyed cfg s)
    (hI : NothingCreated s) (hC : RejectsOnlyNew cfg s a) (hstep : Step cfg s a s') :
    NothingCreated s' := by
  intro userId key hopen hhas
  rcases hstep.hasTransfer hs h hhas with hold |
    ⟨i, r, record, now, createdAt, transferId, rfl, hr, hpc, rfl, rfl, hp⟩
  · rcases hstep.rejectionOpen hs h hkeyed hopen with hopen |
      ⟨-, i, r, record, now, createdAt, transferId, e, rfl, hr, hpc, rfl, rfl, hrun⟩
    · exact hI userId key hopen hold
    · have hp := (hC i now createdAt transferId r record rfl hr hpc).1 hold
      exact hp.avoids_business h hs hold _ hrun ⟨e, rfl⟩
  · -- the debit that opened the transfer
    by_cases hold : s.store.db.HasTransfer r.userId r.key
    · rcases hstep.rejectionOpen hs h hkeyed hopen with hopen | ⟨-, _, x, _, _, _, _, e, heq, hx, -,
        hxu, hxk, hrun⟩
      · exact hI _ _ hopen hold
      · cases heq
        rw [hr] at hx
        cases hx
        exact hp.avoids_business h hs hold _ hrun ⟨e, rfl⟩
    · rcases hstep.rejectionOpen hs h hkeyed hopen with hopen | ⟨hst, -⟩
      · exact (hC i now createdAt transferId r record rfl hr hpc).2 hold hp hopen
      · rw [hst] at hhas
        exact hold hhas

/-- A request is answered by storing its own response, or from the row of its
key. -/
theorem RequestMove.responds {i : Nat} {r : Request} {st st' : Store} {act : RequestAction}
    {pc : RequestPc} (hbegin : ∀ result, r.pc ≠ .beginning (.finished result))
    (hm : RequestMove cfg i r st act st' pc) {response : Response} {replayed : Bool}
    (hpc : pc = .responded response replayed) :
    st'.db = st.db ∧
      ((∃ record body resourceId, r.pc = .storing record response.statusCode body resourceId ∧
          response.body = some body) ∨
        ∃ row ∈ st.keys.rows, row.userId = r.userId ∧ row.key = r.key ∧
          row.requestFingerprint = cfg.fingerprint r.body ∧ row.status = .completed ∧
          row.responseStatusCode = some response.statusCode ∧
          row.responseBody = response.body) := by
  have hraised : ∀ {record f}, handlerRaised record f ≠ .responded response replayed := by
    intro record f heq
    have := handlerRaised_record record f
    rw [heq] at this
    cases this
  cases hm with
  | @statement _ bpc pc' _ hbpc hb =>
      cases pc' with
      | finished result =>
          have hnot : ∀ res, bpc ≠ .finished res := by
            rintro res rfl
            exact hbegin res hbpc
          cases beginStep_finished hnot hb with
          | new hload htable hresult => subst hresult; cases hpc
          | @replayed row hload hfp hdone htable hresult =>
              subst hresult
              obtain ⟨hrow, huser, hkey⟩ := load_some hload
              simp only [beginPc, afterBegin, replay] at hpc
              split at hpc
              · rename_i code hcode
                cases hpc
                exact ⟨rfl, .inr ⟨row, hrow, huser, hkey, hfp, hdone, hcode, rfl⟩⟩
              · cases hpc
          | refused htable hresult => rcases hresult with rfl | rfl <;> cases hpc
      | _ => cases hpc
  | store hst =>
      cases hpc
      exact ⟨rfl, .inl ⟨_, _, _, hst, rfl⟩⟩
  | debitRaised => exact absurd hpc hraised
  | findRaised => exact absurd hpc hraised
  | submitRaised => exact absurd hpc hraised
  | recordRaised => exact absurd hpc hraised
  | details =>
      simp only [detailsPc] at hpc
      split at hpc <;> cases hpc
  | attempt hcalling => rw [hcalling] at hpc; cases hpc
  | fault hf =>
      cases hp : r.pc <;> rw [hp] at hf <;> cases hf <;> cases hpc
  | _ => cases hpc

theorem run_nothingCreated {s₀ : State} {as : List Action} (h₀ : Initial s₀)
    (hC : Runs.AllSteps (step cfg) (RejectsOnlyNew cfg) s₀ as)
    (h : Runs.run (step cfg) s₀ as = some s) :
    Sound s₀.store.db s.store.db ∧ Keyed cfg s ∧ NothingCreated s := by
  refine Runs.run_invariant_of
    (I := fun s => Sound s₀.store.db s.store.db ∧ Keyed cfg s ∧ NothingCreated s) ?_ ?_ hC h
  · rintro s a s' ⟨hsound, hkeyed, hnothing⟩ hCa hstep
    have hinv := step_inv hstep
    exact ⟨hsound.step h₀.seeded hstep, hkeyed.step hinv,
      hnothing.step h₀.seeded hsound hkeyed hCa hinv⟩
  · refine ⟨h₀.seeded.sound, h₀.keyed, ?_⟩
    rintro userId key (⟨i, r, -, -, -, -, hr, -⟩ | ⟨row, hrow, -⟩)
    · simp [h₀.requests] at hr
    · simp [h₀.keys] at hrow

/-- In a run whose debits stay out of the gap, the moment a request is answered
with a business error, from its own run or from the stored one, its key has no
transfer. -/
theorem rejected_nothing_created {s₀ : State} {as : List Action} (h₀ : Initial s₀)
    (hC : Runs.AllSteps (step cfg) (RejectsOnlyNew cfg) s₀ as)
    (h : Runs.run (step cfg) s₀ as = some s) (hstep : step cfg s a = some s') {i : Nat}
    {r : Request} (hr : s'.requests[i]? = some r) (hnew : s.requests[i]? ≠ some r)
    {statusCode : Nat} {e : DomainError} {replayed : Bool}
    (hpc : r.pc = .responded ⟨statusCode, some (.problem e)⟩ replayed) :
    ¬ s'.store.db.HasTransfer r.userId r.key := by
  obtain ⟨-, hkeyed, hnothing⟩ := run_nothingCreated h₀ hC h
  rcases (step_inv hstep).story hr with ⟨hold, -⟩ | ⟨-, -, rfl⟩ | ⟨rfl, hr₀, hm, rfl⟩
  · exact absurd hold hnew
  · cases hpc
  · obtain ⟨hdb, hfrom⟩ := hm.responds (fun result => hkeyed.begins i _ result hr₀) hpc
    rw [hdb]
    refine hnothing _ _ ?_
    rcases hfrom with ⟨record, body, resourceId, hst, hbody⟩ |
      ⟨row, hrow, huser, hkey, -, -, -, hbody⟩
    · cases hbody
      exact .inl ⟨i, _, record, statusCode, e, resourceId, hr₀, rfl, rfl, hst⟩
    · exact .inr ⟨row, hrow, huser, hkey, e, hbody⟩

/-- A request for more points than the user has. -/
def rejectedRun : List Action :=
  admission 0 "user_bob" "key-1" largeBody 5 ++ [.request 0 (.debit 5 5 sampleTransferId)]

/-- Before its debit there is no transfer and no answer yet. -/
theorem rejectedRun_admitted :
    (Runs.run (step sampleConfig) freshState (admission 0 "user_bob" "key-1" largeBody 5)).all
      (fun s => s.store.db.transfers.isEmpty &&
        (s.requests.all fun r => match r.pc with | .storing _ _ _ _ => false | _ => true) &&
        s.store.keys.rows.all fun row => row.responseBody.isNone) = true := by
  decide +kernel

theorem rejectedRun_rejectsOnlyNew :
    Runs.AllSteps (step sampleConfig) (RejectsOnlyNew sampleConfig) freshState rejectedRun := by
  refine Runs.allSteps_append.mpr ⟨Runs.allSteps_of_forall ?_, ?_⟩
  · intro a ha s i now createdAt transferId r record heq
    subst heq
    simp [admission] at ha
  · intro s hs
    refine ⟨?_, fun _ _ => trivial⟩
    intro i now createdAt transferId r record _ hr hpc
    have hall := rejectedRun_admitted
    rw [hs, Option.all_some, Bool.and_eq_true, Bool.and_eq_true] at hall
    obtain ⟨⟨hempty, hreqs⟩, hrows⟩ := hall
    have hempty := List.isEmpty_iff.mp hempty
    constructor
    · rintro ⟨t, ht, -⟩
      rw [hempty] at ht
      cases ht
    · rintro - - (⟨j, r', _, _, _, _, hr', -, -, hst⟩ | ⟨row, hrow, -, -, e, hbody⟩)
      · have := List.all_eq_true.mp hreqs r' (List.mem_of_getElem? hr')
        rw [hst] at this
        cases this
      · have := List.all_eq_true.mp hrows row hrow
        rw [hbody] at this
        cases this

theorem rejectedRun_answered :
    (Runs.run (step sampleConfig) freshState rejectedRun).any (fun s =>
      (step sampleConfig s (.request 0 .store)).any fun s' =>
        match s.requests[0]?, s'.requests[0]? with
        | some ⟨_, _, _, .storing _ _ _ _⟩,
            some ⟨_, _, _, .responded ⟨422, some (.problem _)⟩ false⟩ => true
        | _, _ => false) = true := by
  decide +kernel

theorem rejected_nothing_created_rejectedRun :
    ∃ s s' r e, Runs.run (step sampleConfig) freshState rejectedRun = some s ∧
      step sampleConfig s (.request 0 .store) = some s' ∧ s'.requests[0]? = some r ∧
      r.pc = .responded ⟨422, some (.problem e)⟩ false ∧
      ¬ s'.store.db.HasTransfer r.userId r.key := by
  obtain ⟨s, hs, hany⟩ := (Option.any_eq_true _ _).mp rejectedRun_answered
  obtain ⟨s', hs', hmatch⟩ := (Option.any_eq_true _ _).mp hany
  split at hmatch
  · rename_i u k b record code body rid u' k' b' e hbefore hafter
    refine ⟨s, s', _, e, hs, hs', hafter, rfl, ?_⟩
    refine rejected_nothing_created freshState_initial rejectedRun_rejectsOnlyNew hs hs' hafter
      ?_ rfl
    rw [hbefore]
    intro h
    cases h
  · cases hmatch

/-- A request for all the points there are fails after its debit; the client
retries it with the same key, as a 500 tells it to. -/
def retriedRun : List Action :=
  admission 0 "user_alice" "key-1" largeBody 5 ++
    [.request 0 (.debit 5 5 sampleTransferId), .request 0 (.fault "connection lost"),
      .request 0 .release] ++
    admission 1 "user_alice" "key-1" largeBody 8 ++
    [.request 1 (.debit 8 8 "tr_00000000000000000000000002"), .request 1 .store]

/-- The error a request was answered with, and the status code. -/
def RequestPc.problem? : RequestPc → Option (Nat × DomainError)
  | .responded ⟨statusCode, some (.problem e)⟩ false => some (statusCode, e)
  | _ => none

theorem RequestPc.problem?_eq_some {pc : RequestPc} {statusCode : Nat} {e : DomainError}
    (h : pc.problem? = some (statusCode, e)) :
    pc = .responded ⟨statusCode, some (.problem e)⟩ false := by
  simp only [problem?] at h
  split at h
  · cases h
    rfl
  · cases h

/-- The retry is answered INSUFFICIENT_BALANCE, and the transfer exists. -/
theorem rejected_but_created :
    ∃ s r e, Runs.run (step sampleConfig) freshState retriedRun = some s ∧
      s.requests[1]? = some r ∧ r.pc = .responded ⟨422, some (.problem e)⟩ false ∧
      e.code = .insufficientBalance ∧ s.store.db.HasTransfer r.userId r.key := by
  have hany : (Runs.run (step sampleConfig) freshState retriedRun).any (fun s : State =>
      (s.requests[1]?).any fun r => r.pc.problem?.any fun p =>
        decide (p.1 = 422 ∧ p.2.code = .insufficientBalance ∧
          ∃ t ∈ s.store.db.transfers, t.userId = r.userId ∧ t.idempotencyKey = r.key)) = true := by
    decide +kernel
  obtain ⟨s, hs, hrequest⟩ := (Option.any_eq_true _ _).mp hany
  obtain ⟨r, hr, hproblem⟩ := (Option.any_eq_true _ _).mp hrequest
  obtain ⟨⟨statusCode, e⟩, hpc, hall⟩ := (Option.any_eq_true _ _).mp hproblem
  obtain ⟨rfl, hcode, hhas⟩ := of_decide_eq_true hall
  exact ⟨s, r, e, hs, hr, RequestPc.problem?_eq_some hpc, hcode, hhas⟩

end

/-! ## Answers with a transfer -/

/-- The body the client asked with is the one the answer shows. -/
structure TransferOut.Describes (out : TransferOut) (body : TransferRequest) : Prop where
  sourceProgram : out.sourceProgram = body.sourceProgram
  destinationProgram : out.destinationProgram = body.destinationProgram
  sourcePoints : out.sourcePoints = body.sourcePoints

/-- A 2xx carries a transfer that the body describes. -/
def GoodAnswer (body : TransferRequest) (statusCode : Nat) (answer : Option ResponseBody) : Prop :=
  200 ≤ statusCode → statusCode < 300 →
    ∃ out : TransferOut, answer = some (.transfer out) ∧ out.Describes body

/-- The debit stays out of the gap: if it passes its checks, the transfer its
key already has, if any, is the one its body asks for. -/
def CollidesWithOwn (cfg : Config) (s : State) (a : Action) : Prop :=
  ∀ (i : Nat) now createdAt transferId r record,
    a = .request i (.debit now createdAt transferId) → s.requests[i]? = some r →
    r.pc = .admitted record → Passes cfg.maxTransferPoints s.store.db now r.userId r.body →
    ∀ t ∈ s.store.db.transfers, t.userId = r.userId → t.idempotencyKey = r.key →
      Requested s.store.db r.body t

/-- The answer was made for a request with this fingerprint. -/
def State.AnsweredFor (cfg : Config) (s : State) (fingerprint : String) (statusCode : Nat)
    (answer : Option ResponseBody) : Prop :=
  ∃ (j : Nat) (r : Request), s.requests[j]? = some r ∧ cfg.fingerprint r.body = fingerprint ∧
    GoodAnswer r.body statusCode answer

/-- The transfer the request found or created is the one it asked for. -/
def FaithfulPc (cfg : Config) (db₀ : Database) (s : State) (r : Request) : RequestPc → Prop
  | .collided _ => ∃ id t, s.store.db.transfer? id = some t ∧ KeyOf r t ∧ Requested db₀ r.body t
  | .created _ id => ∃ t, s.store.db.transfer? id = some t ∧ Requested db₀ r.body t
  | .storing _ statusCode body _ => GoodAnswer r.body statusCode (some body)
  | .responded response _ =>
      s.AnsweredFor cfg (cfg.fingerprint r.body) response.statusCode response.body
  | _ => True

structure Faithful (cfg : Config) (db₀ : Database) (s : State) : Prop where
  pcs : ∀ (i : Nat) r, s.requests[i]? = some r → FaithfulPc cfg db₀ s r r.pc
  rows : ∀ row ∈ s.store.keys.rows, ∀ statusCode, row.responseStatusCode = some statusCode →
    s.AnsweredFor cfg row.requestFingerprint statusCode row.responseBody

section

variable {cfg : Config} {db₀ : Database} {s s' : State} {a : Action}

theorem Requested.congr {db : Database} {body : TransferRequest} {t : Transfer}
    (h : Requested db body t) (hprograms : db.programs = db₀.programs) :
    Requested db₀ body t where
  sourcePoints := h.sourcePoints
  source := by
    obtain ⟨p, hp, hcode⟩ := h.source
    exact ⟨p, by rw [Database.program?, ← hprograms]; exact hp, hcode⟩
  destination := by
    obtain ⟨p, hp, hcode⟩ := h.destination
    exact ⟨p, by rw [Database.program?, ← hprograms]; exact hp, hcode⟩

/-- The details of a requested transfer describe its request. -/
theorem transferDetails_describes (h : Sound db₀ s.store.db) {id userId : String}
    {body : TransferRequest} {t : Transfer} {out : TransferOut}
    (ht : s.store.db.transfer? id = some t) (hreq : Requested db₀ body t)
    (hout : s.store.db.transferDetails? id userId = some out) : out.Describes body := by
  simp only [Database.transferDetails?, Option.bind_eq_bind, Option.bind_eq_some_iff,
    Option.pure_def, Option.some.injEq] at hout
  obtain ⟨x, hx, source, hsource, destination, hdestination, rfl⟩ := hout
  have hxid := List.find?_some hx
  simp only [decide_eq_true_eq] at hxid
  obtain rfl : x = t := Table.eq_of_key_eq h.transferIds (List.mem_of_find?_eq_some hx)
    (Table.lookup_mem ht) (hxid.1.trans (Table.lookup_key ht).symm)
  obtain ⟨p, hp, hpcode⟩ := hreq.source
  obtain ⟨q, hq, hqcode⟩ := hreq.destination
  rw [Database.program?, h.programs] at hsource hdestination
  rw [Database.program?] at hp hq
  rw [hp] at hsource
  rw [hq] at hdestination
  cases hsource
  cases hdestination
  exact ⟨hpcode, hqcode, hreq.sourcePoints⟩

/-- A business error is no 2xx. -/
theorem ErrorCode.status_ge (code : ErrorCode) : 400 ≤ code.status := by
  cases code <;> decide

theorem handlerRaised_faithful {r : Request} {record : Nat} {f : Fault} :
    FaithfulPc cfg db₀ s r (handlerRaised record f) := by
  cases f with
  | domain e =>
      simp only [handlerRaised]
      split
      · trivial
      · intro hlow hhigh
        have hcode : 400 ≤ e.status := e.code.status_ge
        omega
  | _ => trivial

theorem faulted_faithful {r : Request} {f : Fault} {pc pc' : RequestPc}
    (h : faulted f pc = some pc') : FaithfulPc cfg db₀ s r pc' := by
  cases pc <;> cases h <;> trivial

theorem beginPc_faithful {r : Request} {pc : BeginPc ResponseBody}
    (h : ∀ response replayed, beginPc pc = .responded response replayed →
      s.AnsweredFor cfg (cfg.fingerprint r.body) response.statusCode response.body) :
    FaithfulPc cfg db₀ s r (beginPc pc) := by
  cases hpc : beginPc pc with
  | responded response replayed => exact h response replayed hpc
  | collided | created | storing =>
      cases pc with
      | finished result =>
          simp only [beginPc, afterBegin] at hpc
          repeat' split at hpc
          all_goals cases hpc
      | _ => cases hpc
  | _ => trivial

theorem Step.answeredFor (hstep : Step cfg s a s') {fingerprint : String} {statusCode : Nat}
    {answer : Option ResponseBody} (h : s.AnsweredFor cfg fingerprint statusCode answer) :
    s'.AnsweredFor cfg fingerprint statusCode answer := by
  obtain ⟨j, r, hr, hfp, hgood⟩ := h
  obtain ⟨r', hr', -, -, hbody⟩ := hstep.request_persists hr
  refine ⟨j, r', hr', ?_, ?_⟩
  · rw [hbody]; exact hfp
  · rw [hbody]; exact hgood

/-- What a request knows of its answer stays true while others move. -/
theorem FaithfulPc.rely (hstep : Step cfg s a s') {c : Cause}
    (hc : Change c s.store.db s'.store.db) {r : Request}
    (h : FaithfulPc cfg db₀ s r r.pc) : FaithfulPc cfg db₀ s' r r.pc := by
  cases hpc : r.pc with
  | collided record =>
      rw [hpc] at h
      obtain ⟨id, t, ht, hkey, hreq⟩ := h
      obtain ⟨t', ht', hterms, -⟩ := hc.advance ht
      exact ⟨id, t', ht', hkey.sameTerms hterms, hreq.sameTerms hterms⟩
  | created record id =>
      rw [hpc] at h
      obtain ⟨t, ht, hreq⟩ := h
      obtain ⟨t', ht', hterms, -⟩ := hc.advance ht
      exact ⟨t', ht', hreq.sameTerms hterms⟩
  | storing record statusCode body resourceId =>
      rw [hpc] at h
      exact h
  | responded response replayed =>
      rw [hpc] at h
      exact hstep.answeredFor h
  | _ => trivial

/-- A move of the request itself keeps its answer faithful. -/
theorem RequestMove.faithful (hs : Seeded db₀) (hsound : Sound db₀ s.store.db)
    (hkeyed : Keyed cfg s) (hI : Faithful cfg db₀ s) {i : Nat} {r : Request} {act : RequestAction}
    {pc : RequestPc} (hr : s.requests[i]? = some r) (hC : CollidesWithOwn cfg s (.request i act))
    (hstep : Step cfg s (.request i act) s')
    (hpc : PcSound db₀ s.store r r.pc) (hm : RequestMove cfg i r s.store act s'.store pc) :
    FaithfulPc cfg db₀ s' { r with pc } pc := by
  have hchange := hstep.change (hsound.accountIds hs)
  have hresponds : ∀ {response replayed}, pc = .responded response replayed →
      s'.AnsweredFor cfg (cfg.fingerprint r.body) response.statusCode response.body := by
    intro response replayed hpc'
    obtain ⟨-, hfrom⟩ := hm.responds (fun result => hkeyed.begins i r result hr) hpc'
    refine hstep.answeredFor ?_
    rcases hfrom with ⟨record, body, resourceId, hst, hbody⟩ |
      ⟨row, hrow, -, -, hfp, -, hcode, hbody⟩
    · have hgood := hI.pcs i r hr
      rw [hst] at hgood
      rw [hbody]
      exact ⟨i, r, hr, rfl, hgood⟩
    · rw [← hfp, ← hbody]
      exact hI.rows row hrow _ hcode
  obtain ⟨st', requests', reconciles'⟩ := s'
  change RequestMove cfg i r s.store act st' pc at hm
  cases hm with
  | statement => exact beginPc_faithful fun _ _ hend => hresponds hend
  | debited => trivial
  | collided hadm hrun =>
      obtain ⟨t, ht, huser, hkey⟩ := openTransfer_collided hsound hs hrun
      have hp := openTransfer_collided_passes hsound hs hrun
      have hreq := (hC _ _ _ _ _ _ rfl hr hadm hp t ht huser hkey).congr hsound.programs
      exact ⟨t.id, t, Table.lookup_of_mem hsound.transferIds ht, ⟨huser, hkey⟩, hreq⟩
  | debitRaised => exact handlerRaised_faithful
  | found hcol hrun =>
      obtain ⟨x, hx, rfl, rfl⟩ := findByIdempotencyKey_ok.mp hrun
      have hxkey := List.find?_some hx
      simp only [decide_eq_true_eq] at hxkey
      have hxmem := List.mem_of_find?_eq_some hx
      have hpc' := hI.pcs i r hr
      rw [hcol] at hpc'
      obtain ⟨id, t, ht, hkey, hreq⟩ := hpc'
      obtain rfl : x = t := hsound.eq_of_key hxmem (Table.lookup_mem ht)
        (hxkey.1.trans hkey.userId.symm) (hxkey.2.trans hkey.key.symm)
      exact ⟨x, Table.lookup_of_mem hsound.transferIds hxmem, hreq⟩
  | findRaised => exact handlerRaised_faithful
  | submitted => trivial
  | submitRaised => exact handlerRaised_faithful
  | call => trivial
  | attempt hcalling =>
      rw [hcalling]
      trivial
  | answer => trivial
  | recorded hans hrun =>
      rw [hans] at hpc
      obtain ⟨-, t, ht, hopen, -⟩ := hpc
      obtain ⟨t', ht', hterms, -⟩ := hchange.advance ht
      exact ⟨t', ht', hopen.body.sameTerms hterms⟩
  | recordRaised => exact handlerRaised_faithful
  | details hcre =>
      have hpc' := hI.pcs i r hr
      rw [hcre] at hpc'
      obtain ⟨t, ht, hreq⟩ := hpc'
      simp only [detailsPc]
      split
      · rename_i out hout
        intro _ _
        exact ⟨out, rfl, transferDetails_describes hsound ht hreq hout⟩
      · trivial
  | store => exact hresponds rfl
  | release => trivial
  | fault h => exact faulted_faithful h
  | crash => trivial

theorem Faithful.step (hs : Seeded db₀) (hsound : Sound db₀ s.store.db) (howned : Owned db₀ s)
    (hkeyed : Keyed cfg s) (hI : Faithful cfg db₀ s) (hC : CollidesWithOwn cfg s a)
    (hstep : Step cfg s a s') : Faithful cfg db₀ s' where
  pcs := by
    intro j r' hr'
    rcases hstep.story hr' with ⟨hr, -⟩ | ⟨-, -, rfl⟩ | ⟨rfl, hr, hm, rfl⟩
    · exact (hI.pcs j r' hr).rely hstep (hstep.change (hsound.accountIds hs))
    · trivial
    · exact hm.faithful hs hsound hkeyed hI hr hC hstep (howned.pcs j _ hr)
  rows := by
    intro row hrow statusCode hcode
    refine hstep.answeredFor ?_
    rcases hstep.row_cases hrow with hrow | ⟨_, _, _, _, -, -, rfl⟩ |
      ⟨i, r, record, code, body, resourceId, row₀, rfl, hr, hpc, hrow₀, hid, rfl⟩
    · exact hI.rows row hrow statusCode hcode
    · cases hcode
    · obtain ⟨-, -, hfp⟩ := (hkeyed.records i r record hr (by rw [hpc]; rfl)).2 row₀ hrow₀ hid
      have hgood := hI.pcs i r hr
      rw [hpc] at hgood
      cases hcode
      exact ⟨i, r, hr, hfp.symm, hgood⟩

theorem run_faithful {s₀ : State} {as : List Action} (h₀ : Initial s₀)
    (hC : Runs.AllSteps (LoyaltyTransfer.step cfg) (CollidesWithOwn cfg) s₀ as)
    (h : Runs.run (LoyaltyTransfer.step cfg) s₀ as = some s) : Faithful cfg s₀.store.db s := by
  have hall : (Sound s₀.store.db s.store.db ∧ Owned s₀.store.db s) ∧ Keyed cfg s ∧
      Faithful cfg s₀.store.db s := by
    refine Runs.run_invariant_of
      (I := fun s => (Sound s₀.store.db s.store.db ∧ Owned s₀.store.db s) ∧ Keyed cfg s ∧
        Faithful cfg s₀.store.db s) ?_ ?_ hC h
    · rintro s a s' ⟨⟨hsound, howned⟩, hkeyed, hfaithful⟩ hCa hstep
      have hinv := step_inv hstep
      exact ⟨⟨hsound.step h₀.seeded hstep, howned.step h₀.seeded hsound hinv⟩,
        hkeyed.step hinv, hfaithful.step h₀.seeded hsound howned hkeyed hCa hinv⟩
    · refine ⟨⟨h₀.seeded.sound, h₀.owned⟩, h₀.keyed, ?_, ?_⟩
      · simp [h₀.requests]
      · simp [h₀.keys]
  exact hall.2.2

/-- SHA-256 tells the digested texts of the run's requests apart. -/
def State.NoDigestCollision (cfg : Config) (s : State) : Prop :=
  ∀ r ∈ s.requests, ∀ r' ∈ s.requests, cfg.fingerprint r.body = cfg.fingerprint r'.body →
    fingerprintText "POST" "/v1/transfers" r.body.dump =
      fingerprintText "POST" "/v1/transfers" r'.body.dump

instance (cfg : Config) (s : State) : Decidable (s.NoDigestCollision cfg) :=
  inferInstanceAs (Decidable (∀ r ∈ s.requests, ∀ r' ∈ s.requests, _ → _))

/-- In a run whose debits stay out of the gap, every 2xx answer, fresh or
replayed, shows a transfer with the programs and the points of the body it
answers. -/
theorem answer_describes_request {s₀ : State} {as : List Action} (h₀ : Initial s₀)
    (hC : Runs.AllSteps (LoyaltyTransfer.step cfg) (CollidesWithOwn cfg) s₀ as)
    (h : Runs.run (LoyaltyTransfer.step cfg) s₀ as = some s) (hsha : s.NoDigestCollision cfg)
    {i : Nat} {r : Request} (hr : s.requests[i]? = some r) {response : Response} {replayed : Bool}
    (hpc : r.pc = .responded response replayed) (hlow : 200 ≤ response.statusCode)
    (hhigh : response.statusCode < 300) :
    ∃ out, response.body = some (.transfer out) ∧ out.Describes r.body := by
  have hfaithful := (run_faithful h₀ hC h).pcs i r hr
  rw [hpc] at hfaithful
  obtain ⟨j, r', hr', hfp, hgood⟩ := hfaithful
  have hbody : r'.body = r.body := Config.fingerprint_inj
    (hsha r' (List.mem_of_getElem? hr') r (List.mem_of_getElem? hr)) hfp
  rw [← hbody]
  exact hgood hlow hhigh

end

theorem collidesWithOwn_of_no_transfer {cfg : Config} {s : State} {a : Action}
    (h : s.store.db.transfers = []) : CollidesWithOwn cfg s a := by
  intro i now createdAt transferId r record _ _ _ _ t ht
  rw [h] at ht
  cases ht

theorem completedRun_collidesWithOwn :
    Runs.AllSteps (step sampleConfig) (CollidesWithOwn sampleConfig) freshState completedRun := by
  refine Runs.allSteps_append.mpr ⟨Runs.allSteps_of_forall ?_, ?_⟩
  · intro a ha s i now createdAt transferId r record heq
    subst heq
    simp [admission] at ha
  · intro s hs
    have hempty : (Runs.run (step sampleConfig) freshState
        (admission 0 "user_alice" "key-1" sampleBody 5)).all
        (fun s => s.store.db.transfers.isEmpty) = true := by
      decide +kernel
    rw [hs] at hempty
    refine ⟨collidesWithOwn_of_no_transfer (List.isEmpty_iff.mp hempty), fun s' _ => ?_⟩
    refine Runs.allSteps_of_forall ?_
    intro a ha s i now createdAt transferId r record heq
    subst heq
    simp at ha

/-- The transfer a request was answered with, and the status code. -/
def RequestPc.shown? : RequestPc → Option (Nat × TransferOut)
  | .responded ⟨statusCode, some (.transfer out)⟩ false => some (statusCode, out)
  | _ => none

theorem RequestPc.shown?_eq_some {pc : RequestPc} {statusCode : Nat} {out : TransferOut}
    (h : pc.shown? = some (statusCode, out)) :
    pc = .responded ⟨statusCode, some (.transfer out)⟩ false := by
  simp only [shown?] at h
  split at h
  · cases h
    rfl
  · cases h

theorem answer_describes_request_completedRun :
    ∃ s r out, Runs.run (step sampleConfig) freshState completedRun = some s ∧
      s.requests[0]? = some r ∧ r.pc = .responded ⟨201, some (.transfer out)⟩ false ∧
      out.Describes r.body := by
  have hany : (Runs.run (step sampleConfig) freshState completedRun).any (fun s : State =>
      decide (∀ r ∈ s.requests, r.body = sampleBody) &&
      (s.requests[0]?).any fun r => r.pc.shown?.any fun x => decide (x.1 = 201)) = true := by
    decide +kernel
  obtain ⟨s, hs, hboth⟩ := (Option.any_eq_true _ _).mp hany
  obtain ⟨hbodies, hrequest⟩ := Bool.and_eq_true_iff.mp hboth
  have hbodies := of_decide_eq_true hbodies
  have hsha : s.NoDigestCollision sampleConfig := by
    intro r hr r' hr' _
    rw [hbodies r hr, hbodies r' hr']
  obtain ⟨r, hr, hshown⟩ := (Option.any_eq_true _ _).mp hrequest
  obtain ⟨⟨statusCode, out⟩, hpc, hcode⟩ := (Option.any_eq_true _ _).mp hshown
  obtain rfl := of_decide_eq_true hcode
  have hpc := RequestPc.shown?_eq_some hpc
  obtain ⟨out', hout, hdescribes⟩ := answer_describes_request freshState_initial
    completedRun_collidesWithOwn hs hsha hr hpc (show 200 ≤ 201 by decide)
    (show 201 < 300 by decide)
  cases hout
  exact ⟨s, r, out, hs, hr, hpc, hdescribes⟩

/-- A request fails after its debit and its key is released; the client uses the
key again for another transfer. -/
def reusedRun : List Action :=
  admission 0 "user_alice" "key-1" sampleBody 5 ++
    [.request 0 (.debit 5 5 sampleTransferId), .request 0 (.fault "connection lost"),
      .request 0 .release] ++
    admission 1 "user_alice" "key-1" otherBody 8 ++
    [.request 1 (.debit 8 8 "tr_00000000000000000000000002"), .request 1 .find,
      .request 1 .details, .request 1 .store]

/-- The second request is told 202 and shown the first one's transfer. -/
theorem answer_of_another_request :
    ∃ s r out, Runs.run (step sampleConfig) freshState reusedRun = some s ∧
      s.NoDigestCollision sampleConfig ∧ s.requests[1]? = some r ∧ r.body = otherBody ∧
      r.pc = .responded ⟨202, some (.transfer out)⟩ false ∧
      out.id = sampleTransferId ∧ ¬ out.Describes r.body := by
  have hany : (Runs.run (step sampleConfig) freshState reusedRun).any (fun s : State =>
      decide (s.NoDigestCollision sampleConfig) &&
      (s.requests[1]?).any fun r => r.pc.shown?.any fun x =>
        decide (x.1 = 202 ∧ r.body = otherBody ∧ x.2.id = sampleTransferId ∧
          x.2.sourcePoints ≠ r.body.sourcePoints)) = true := by
    decide +kernel
  obtain ⟨s, hs, hboth⟩ := (Option.any_eq_true _ _).mp hany
  obtain ⟨hsha, hrequest⟩ := Bool.and_eq_true_iff.mp hboth
  obtain ⟨r, hr, hshown⟩ := (Option.any_eq_true _ _).mp hrequest
  obtain ⟨⟨statusCode, out⟩, hpc, hall⟩ := (Option.any_eq_true _ _).mp hshown
  obtain ⟨rfl, hbody, hid, hpoints⟩ := of_decide_eq_true hall
  exact ⟨s, r, out, hs, of_decide_eq_true hsha, hr, hbody, RequestPc.shown?_eq_some hpc, hid,
    fun h => hpoints h.sourcePoints⟩

end LoyaltyTransfer
