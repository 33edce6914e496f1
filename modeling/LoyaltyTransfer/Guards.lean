/-
# `LoyaltyTransfer.Guards` — the last line of defence is never reached

Four checks stand behind the saga and the reconciler in case they are wrong:
a second journal of one type, an unbalanced journal, a negative user balance,
a status change that is not in the table.  `Fault.LastLine` are the faults
these checks raise.  Under the invariant of `Conservation` no transaction
raises one of them, with a single exception: `markSubmitted` of a transfer
that is no longer SOURCE_DEBITED.

The argument is one per journal: the journal keeps the rules (`Lawful`), so
`postJournal` raises at most for the range of a column; the status allows the
move, so `transition` does not either; and no other statement raises a fault of
this kind.
-/
import LoyaltyTransfer.Conservation

namespace LoyaltyTransfer

open Transaction

/-- The faults of the last-line checks. -/
inductive Fault.LastLine : Fault → Prop
  | journalAlreadyPosted (id : Option String) (ty : JournalType) :
      LastLine (.journalAlreadyPosted id ty)
  | unbalanced (nets : List (Nat × Int)) : LastLine (.ledger (.unbalanced nets))
  | userBalanceNegative : LastLine (.domain userBalanceNegative)
  | invalidStateTransition (id : String) (fromStatus toStatus : TransferStatus) :
      LastLine (.invalidStateTransition id fromStatus toStatus)

variable {db₀ db db' : Database} {t : Transfer}

/-! ## Statements that raise none of them

The debit is followed for any class of faults as rare as these: besides the
last-line ones, the unique violation that tells a request its key is taken. -/

/-- Faults that no lookup, lock or column raises. -/
structure Quiet (bad : Fault → Prop) : Prop where
  ledger : ∀ e, bad (.ledger e) → ∃ nets, e = .unbalanced nets
  integrity : ∀ c, bad (.integrity c) → c = .uqTransfersUserIdempotencyKey
  data : ∀ c, ¬ bad (.data c)
  lookup : ∀ what, ¬ bad (.lookup what)
  runtime : ∀ what, ¬ bad (.runtime what)

/-- And that no pricing rule raises. -/
structure Rare (bad : Fault → Prop) : Prop extends Quiet bad where
  domain : ∀ e, bad (.domain e) → e = userBalanceNegative

theorem lastLine_rare : Rare Fault.LastLine where
  domain := fun e h => by cases h; rfl
  ledger := fun e h => by cases h; exact ⟨_, rfl⟩
  integrity := fun _ h => by cases h
  data := fun _ h => by cases h
  lookup := fun _ h => by cases h
  runtime := fun _ h => by cases h

/-- The business errors. -/
def Fault.Business (f : Fault) : Prop := ∃ e, f = .domain e

theorem business_quiet : Quiet Fault.Business where
  ledger := by simp [Fault.Business]
  integrity := by simp [Fault.Business]
  data := by simp [Fault.Business]
  lookup := by simp [Fault.Business]
  runtime := by simp [Fault.Business]

section

variable {bad : Fault → Prop}

theorem ite_some_ne {α : Type} {p : Prop} [Decidable p] {a c : α} {rest : Option α} (h : a ≠ c)
    (hrest : rest ≠ some c) : (if p then some a else rest) ≠ some c := by
  by_cases hp : p <;> simp [hp, h, hrest]

/-- A CHECK of the row is not the unique index on the key. -/
theorem violatedCheck_ne (t : Transfer) :
    t.violatedCheck ≠ some .uqTransfersUserIdempotencyKey := by
  unfold Transfer.violatedCheck
  iterate 11 refine ite_some_ne (by decide) ?_
  intro h
  cases h

theorem avoids_checked (hb : Quiet bad) (t : Transfer) :
    Tx.Avoids bad db (Tx.ofExcept t.checked : DbTx Unit) := by
  refine Tx.avoids_ofExcept fun e he => ?_
  simp only [Transfer.checked] at he
  split at he
  · cases he; exact hb.data _
  · split at he
    · rename_i c hc
      cases he
      exact fun hbad => violatedCheck_ne t (hc.trans (congrArg some (hb.integrity c hbad)))
    · cases he

theorem avoids_integrity {p : Prop} [Decidable p] (hb : Quiet bad) {c : Constraint}
    (hc : c ≠ .uqTransfersUserIdempotencyKey) :
    Tx.Avoids bad db (Tx.failIf p (Fault.integrity c) : DbTx Unit) :=
  Tx.avoids_failIf fun _ hbad => hc (hb.integrity c hbad)

theorem avoids_insertTransfer (hb : Quiet bad) (t : Transfer)
    (hkey : bad (.integrity .uqTransfersUserIdempotencyKey) →
      ∀ x ∈ db.transfers, ¬ (x.userId = t.userId ∧ x.idempotencyKey = t.idempotencyKey)) :
    Tx.Avoids bad db (insertTransfer t) := by
  refine Tx.avoids_get.bind fun _ _ hget => ?_
  obtain ⟨rfl, rfl⟩ := Prod.mk.inj (Tx.get_ok.mp hget)
  refine (avoids_checked hb t).bind fun _ _ _ => ?_
  refine (avoids_integrity hb (by decide)).bind fun _ _ _ => ?_
  refine (avoids_integrity hb (by decide)).bind fun _ _ _ => ?_
  refine (Tx.avoids_failIf fun ⟨x, hx, hxk⟩ hbad => hkey hbad x hx hxk).bind fun _ _ _ => ?_
  iterate 4
    refine (avoids_integrity hb (by decide)).bind fun _ _ _ => ?_
  exact Tx.avoids_set _

theorem avoids_beginAt (moment : Time) : Tx.Avoids bad db (beginAt moment) :=
  Tx.avoids_get.bind fun _ _ _ => Tx.avoids_set _

theorem avoids_insertEvents (hb : Quiet bad) (events : List AuditEvent) :
    Tx.Avoids bad db (insertEvents events) := by
  refine Tx.avoids_get.bind fun _ _ _ => ?_
  refine (Tx.avoids_failIf fun _ => hb.data _).bind fun _ _ _ => ?_
  exact Tx.avoids_set _

theorem avoids_saveTransfer (hb : Quiet bad) (t : Transfer) (events : List AuditEvent)
    (moment : Option Time) : Tx.Avoids bad db (saveTransfer t events moment) := by
  refine Tx.avoids_get.bind fun _ _ _ => ?_
  refine (avoids_checked hb t).bind fun _ _ _ => ?_
  exact (Tx.avoids_set _).bind fun _ _ _ => avoids_insertEvents hb events

theorem avoids_lockTransfer (hb : Quiet bad) (id : String) : Tx.Avoids bad db (lockTransfer id) :=
  Tx.avoids_get.bind fun _ _ _ => Tx.avoids_ofOption (hb.lookup _)

theorem avoids_getSystemAccount (hb : Quiet bad) (programId : Nat) (ty : AccountType) :
    Tx.Avoids bad db (getSystemAccount programId ty) := by
  refine Tx.avoids_get.bind fun _ _ _ => Tx.avoids_ofOption fun hbad => ?_
  obtain ⟨_, hne⟩ := hb.ledger _ hbad
  cases hne

theorem avoids_lockAccountsForUpdate (hb : Quiet bad) (ids : List Nat) :
    Tx.Avoids bad db (lockAccountsForUpdate ids) := by
  refine Tx.avoids_get.bind fun _ _ _ => ?_
  refine (Tx.avoids_failIf fun _ hbad => ?_).bind fun _ _ _ => Tx.avoids_pure _
  obtain ⟨_, hne⟩ := hb.ledger _ hbad
  cases hne

theorem avoids_lockedAccount (hb : Quiet bad) (accounts : List Account) (id : Nat) :
    Tx.Avoids bad db (lockedAccount accounts id) :=
  Tx.avoids_ofOption (hb.lookup _)

theorem avoids_userAccount (hb : Rare bad) (userId : String) (program : ProgramRef) :
    Tx.Avoids bad db (userAccount userId program) := by
  refine (Tx.avoids_get.bind fun _ _ _ => Tx.avoids_pure _).bind fun _ _ _ => ?_
  refine Tx.avoids_ofOption fun hbad => ?_
  have hcode := congrArg DomainError.code (hb.domain _ hbad)
  cases hcode

theorem avoids_postJournal (hb : Quiet bad) {ty : JournalType} {postings : List Posting}
    {transferId : Option String} (h : Lawful db ty postings transferId) :
    Tx.Avoids bad db (postJournal ty postings transferId) := by
  intro e he
  obtain ⟨c, rfl⟩ := postJournal_error h he
  exact hb.data c

theorem avoids_dateAdd (hb : Quiet bad) (now delay : Time) :
    Tx.Avoids bad db (Tx.ofExcept (dateAdd now delay) : DbTx Time) := by
  refine Tx.avoids_ofExcept fun e he => ?_
  obtain ⟨-, rfl⟩ := dateAdd_error.mp he
  exact hb.runtime _

theorem avoids_transition {toStatus : TransferStatus} {reason : String}
    {metadata : List (String × Json.Value)} {moment : Time}
    (h : toStatus ∈ allowedTransitions t.status) :
    Tx.Avoids bad db
      (Tx.ofExcept (transition t toStatus reason metadata moment) :
        DbTx (Transfer × AuditEvent)) := by
  refine Tx.avoids_ofExcept fun e he => ?_
  rw [transition_ok.mpr ⟨h, rfl⟩] at he
  cases he

end

/-! ## The three journals keep the rules -/

theorem hasAccount_of_mem {a : Account} (ha : a ∈ db.accounts) :
    db.hasAccount a.id a.programId = true :=
  List.any_eq_true.mpr ⟨a, ha, by simp⟩

theorem Opening.lawful (h : Sound db₀ db) (hs : Seeded db₀)
    {source destination clearing : Account} (ho : Opening db t source destination clearing)
    (db₁ : Database) (haccounts : db₁.accounts = db.accounts)
    (hjournals : db₁.ledgerJournals = db.ledgerJournals)
    (htransfer : ∃ x ∈ db₁.transfers, x.id = t.id) :
    Lawful db₁ .transferDebit (debitPostings source clearing t.sourcePoints) (some t.id) := by
  obtain ⟨hsmem, -, -, hsp⟩ := userAccount?_spec ho.sourceAccount
  obtain ⟨hcmem, hcsys, hcp, -⟩ := systemAccount?_spec ho.clearingAccount
  have hpos := (ho.rowSound h).sourcePoints
  refine ⟨validateJournal_ok.mpr ⟨by simp [debitPostings], ?_, ?_⟩, rfl, ?_, ?_, ?_, ?_⟩
  · simpa [debitPostings, Posting.debit, Posting.credit] using hpos
  · simp [debitPostings, Posting.debit, Posting.credit, Posting.signedAmount, Tally.total_cons,
      hsp, hcp]
  · rintro - j hj ⟨hjt, -⟩
    rw [hjournals] at hj
    obtain ⟨x, hx, hxid⟩ := h.journalTransfers j hj t.id hjt
    exact ho.insertable.id x hx hxid
  · rintro id hid
    cases hid
    exact htransfer
  · simp only [Database.hasAccount, haccounts]
    simpa [debitPostings, Posting.debit, Posting.credit] using
      And.intro (by simpa [Database.hasAccount] using hasAccount_of_mem hsmem)
        (by simpa [Database.hasAccount] using hasAccount_of_mem hcmem)
  · -- the balance check of the debit covers the only user account it takes from
    intro a ha hu _
    rw [haccounts] at ha
    have := (h.opened hs ho [] 0).userBalances
    exact this _ (List.mem_map_of_mem ha) hu

theorem settleAccounts_mem (accts : SettleAccounts) (hof : accts.Of db t) :
    ∀ p ∈ settlePostings accts t, db.hasAccount p.accountId p.programId = true := by
  have hc := hasAccount_of_mem (systemAccount?_spec hof.sourceClearing).1
  have hs := hasAccount_of_mem (systemAccount?_spec hof.sourceSettlement).1
  have hd := hasAccount_of_mem (systemAccount?_spec hof.destinationSettlement).1
  have ht := hasAccount_of_mem (Table.lookup_mem hof.destination)
  simp [settlePostings, Posting.debit, Posting.credit, hc, hs, hd, ht]

/-- No journal of this type yet: a held transfer has only its debit. -/
theorem Sound.fresh_journal (h : Sound db₀ db) (ht : db.transfer? t.id = some t)
    (hh : t.status ∈ heldStatuses) {ty : JournalType} (hty : ty ≠ .transferDebit) :
    ∀ j ∈ db.ledgerJournals, ¬ (j.transferId = some t.id ∧ j.journalType = ty) := by
  intro j hj hjt
  have hcount := h.journals t (Table.lookup_mem ht) ty
  rw [expectedJournals_held hh, if_neg hty, Database.journalCount, List.countP_eq_zero] at hcount
  exact hcount j hj (by simpa using hjt)

theorem Sound.settle_lawful (h : Sound db₀ db) (hs : Seeded db₀)
    (ht : db.transfer? t.id = some t) (hh : t.status ∈ heldStatuses) {accts : SettleAccounts}
    (hof : accts.Of db t) :
    Lawful db .transferSettle (settlePostings accts t) (some t.id) := by
  have hmem := Table.lookup_mem ht
  have hrow := h.rows t hmem
  obtain ⟨-, -, hcp, -⟩ := systemAccount?_spec hof.sourceClearing
  obtain ⟨-, -, hsp, -⟩ := systemAccount?_spec hof.sourceSettlement
  obtain ⟨-, -, hdp, -⟩ := systemAccount?_spec hof.destinationSettlement
  obtain ⟨-, hu⟩ := h.account_isUser hs hrow.destination hof.destination
  have hsrc := hrow.sourcePoints
  have hdst := hrow.destinationPoints
  refine ⟨validateJournal_ok.mpr ⟨by simp [settlePostings], ?_, ?_⟩, rfl,
    fun _ => h.fresh_journal ht hh (by decide), ?_, settleAccounts_mem accts hof, ?_⟩
  · simp [settlePostings, Posting.debit, Posting.credit, hsrc, hdst]
  · have hne := hrow.programs
    simp [settlePostings, Posting.debit, Posting.credit, Posting.signedAmount, Tally.total_cons,
      hcp, hsp, hdp, hu.program, hne, Ne.symm hne]
  · intro id hid
    cases hid
    exact ⟨t, hmem, rfl⟩
  · intro a ha huser _
    obtain ⟨a₀, ha₀, rfl⟩ := h.seeded_of_mem ha
    exact add_nonneg (h.userBalances _ ha huser)
      (h.settle_user_nonneg (a := a₀) hs hrow hof ha₀ huser)

theorem Sound.reverse_lawful (h : Sound db₀ db) (hs : Seeded db₀)
    (ht : db.transfer? t.id = some t) (hh : t.status ∈ heldStatuses) {clearing source : Account}
    (hc : db.systemAccount? t.sourceProgramId .transferClearing = some clearing)
    (hsrc : db.account? t.sourceAccountId = some source) :
    Lawful db .transferReversal (reversePostings clearing source t.sourcePoints)
      (some t.id) := by
  have hmem := Table.lookup_mem ht
  have hrow := h.rows t hmem
  obtain ⟨hcmem, -, hcp, -⟩ := systemAccount?_spec hc
  obtain ⟨hsmem, hu⟩ := h.account_isUser hs hrow.source hsrc
  have hpos := hrow.sourcePoints
  refine ⟨validateJournal_ok.mpr ⟨by simp [reversePostings], ?_, ?_⟩, rfl,
    fun _ => h.fresh_journal ht hh (by decide), ?_, ?_, ?_⟩
  · simp [reversePostings, Posting.debit, Posting.credit, hpos]
  · simp [reversePostings, Posting.debit, Posting.credit, Posting.signedAmount, Tally.total_cons,
      hcp, hu.program]
  · intro id hid
    cases hid
    exact ⟨t, hmem, rfl⟩
  · simp [reversePostings, Posting.debit, Posting.credit, hasAccount_of_mem hcmem,
      hasAccount_of_mem hsmem]
  · intro a ha huser _
    obtain ⟨a₀, ha₀, rfl⟩ := h.seeded_of_mem ha
    exact add_nonneg (h.userBalances _ ha huser)
      (h.reverse_user_nonneg (a := a₀) hs hrow hc ha₀ huser)

/-! ## The debit -/

theorem avoids_domain {bad : Fault → Prop} (hb : Rare bad) {α : Type} {x : Except DomainError α}
    (h : ∀ e, x = .error e → e.code ≠ .insufficientBalance) :
    Tx.Avoids bad db (Tx.ofExcept (x.mapError Fault.domain) : DbTx α) := by
  refine Tx.avoids_ofExcept fun e he => ?_
  cases x with
  | ok a => cases he
  | error d =>
      cases he
      exact fun hbad => h d rfl (congrArg DomainError.code (hb.domain d hbad))

theorem loadProgram_error {code : String} {e : DomainError} (h : db.loadProgram code = .error e) :
    e.code ≠ .insufficientBalance := by
  simp only [Database.loadProgram] at h
  split at h
  · cases h
  · cases h
    simp

theorem getRoute_error {source destination : String} {now : Time} {e : DomainError}
    (h : db.getRoute source destination now = .error e) : e.code ≠ .insufficientBalance := by
  simp only [Database.getRoute, bind, Except.bind] at h
  cases hsrc : db.loadProgram source with
  | error d => rw [hsrc] at h; cases h; exact loadProgram_error hsrc
  | ok p =>
      cases hdst : db.loadProgram destination with
      | error d => rw [hsrc, hdst] at h; cases h; exact loadProgram_error hdst
      | ok q => rw [hsrc, hdst] at h; cases h

theorem ensureProgramActive_error {p : ProgramRef} {e : DomainError}
    (h : ensureProgramActive p = .error e) : e.code ≠ .insufficientBalance := by
  simp only [ensureProgramActive] at h
  split at h
  · cases h
  · cases h
    simp

theorem ensureRouteUsable_error {route : RouteConfig} {e : DomainError}
    (h : ensureRouteUsable route = .error e) : e.code ≠ .insufficientBalance := by
  simp only [ensureRouteUsable, bind, Except.bind] at h
  cases hsrc : ensureProgramActive route.source with
  | error d => rw [hsrc] at h; cases h; exact ensureProgramActive_error hsrc
  | ok u =>
      cases hdst : ensureProgramActive route.destination with
      | error d => rw [hsrc, hdst] at h; cases h; exact ensureProgramActive_error hdst
      | ok v =>
          rw [hsrc, hdst] at h
          cases hrate : route.rate with
          | none => rw [hrate] at h; cases h; simp
          | some r => rw [hrate] at h; cases h

theorem calculateConversion_error {rate : RateRule} {points : Int} {bonus : Option BonusRule}
    {now : Time} {e : DomainError} (h : calculateConversion rate points bonus now = .error e) :
    e.code ≠ .insufficientBalance := by
  simp only [calculateConversion, bind, Except.bind, pure, Except.pure, throw, throwThe,
    MonadExceptOf.throw] at h
  repeat' split at h
  all_goals first | cases h; simp | cases h

/-- The two INSUFFICIENT_BALANCE errors differ in their text: the check's names
the program, the database's does not. -/
theorem insufficientBalance_ne (program : ProgramRef) (points : Int) :
    insufficientBalance program points ≠ userBalanceNegative := by
  intro heq
  have hdetail := congrArg (fun e => e.detail.toList.head?) heq
  simp [insufficientBalance, userBalanceNegative, toString] at hdetail

section

variable {bad : Fault → Prop}

theorem avoids_debitTerms (hb : Rare bad) (now : Time) (userId : String)
    (request : TransferRequest) : Tx.Avoids bad db (debitTerms now userId request) := by
  refine Tx.avoids_get.bind fun _ _ _ => ?_
  refine (avoids_domain hb fun _ => getRoute_error).bind fun _ _ _ => ?_
  refine (avoids_domain hb fun _ => ensureRouteUsable_error).bind fun _ _ _ => ?_
  refine (avoids_domain hb fun _ => calculateConversion_error).bind fun _ _ _ => ?_
  refine (avoids_userAccount hb _ _).bind fun _ _ _ => ?_
  refine (avoids_userAccount hb _ _).bind fun _ _ _ => ?_
  refine (Tx.avoids_ofOption (hb.runtime _)).bind fun _ _ _ => ?_
  refine (Tx.avoids_ofOption (hb.runtime _)).bind fun _ _ _ => ?_
  refine (avoids_getSystemAccount hb.toQuiet _ _).bind fun _ _ _ => ?_
  refine (avoids_lockAccountsForUpdate hb.toQuiet _).bind fun _ _ _ => ?_
  refine (avoids_lockedAccount hb.toQuiet _ _).bind fun _ _ _ => ?_
  refine (avoids_lockedAccount hb.toQuiet _ _).bind fun _ _ _ => ?_
  refine (Tx.avoids_failIf fun _ hbad => ?_).bind fun _ _ _ => Tx.avoids_pure _
  exact insufficientBalance_ne _ _ (hb.domain _ hbad)

theorem avoids_debitSource (hb : Rare bad) (h : Sound db₀ db) (hs : Seeded db₀)
    {now createdAt : Time} {transferId userId key : String} {request : TransferRequest}
    (hkey : bad (.integrity .uqTransfersUserIdempotencyKey) →
      ∀ x ∈ db.transfers, ¬ (x.userId = userId ∧ x.idempotencyKey = key)) :
    Tx.Avoids bad db (debitSource now createdAt transferId userId request key) := by
  refine (avoids_debitTerms hb _ _ _).bind fun terms db hterms => ?_
  obtain ⟨hp, rfl⟩ := (debitTerms_ok (h.accountIds hs)).mp hterms
  have hpts : terms.conversion.sourcePoints = request.sourcePoints :=
    calculateConversion_ok hp.conversion
  refine Tx.Avoids.bind ?_ fun _ _ _ => Tx.avoids_pure _
  refine (avoids_beginAt _).bind fun _ _ hrun => ?_
  obtain rfl := beginAt_ok.mp hrun
  refine (avoids_insertTransfer hb.toQuiet _ hkey).bind fun _ _ hrun => ?_
  obtain ⟨hins, rfl⟩ := insertTransfer_ok.mp hrun
  refine (avoids_insertEvents hb.toQuiet _).bind fun _ _ hrun => ?_
  obtain ⟨-, rfl⟩ := insertEvents_ok.mp hrun
  have ho : Opening db ((terms.transfer transferId userId key createdAt).movedTo .sourceDebited now)
      terms.source terms.destination terms.clearing :=
    ⟨rfl, hins.of_clock, rfl, ⟨rfl, rfl⟩, hp.source, rfl, hp.destination, rfl, hp.clearing,
      hpts.trans_le hp.balance, now, request, terms, hp, rfl⟩
  rw [← hpts]
  -- the rows inserted so far are those of the transfer itself
  refine Tx.Avoids.bind (avoids_postJournal hb.toQuiet (ho.lawful h hs _ ?_ ?_ ?_))
    fun _ _ _ => ?_
  · rfl
  · rfl
  · exact ⟨_, List.mem_append_right _ (List.mem_singleton_self _), rfl⟩
  refine (avoids_transition (by simp [DebitTerms.transfer, allowedTransitions])).bind
    fun _ _ _ => ?_
  exact avoids_saveTransfer hb.toQuiet _ _ _

theorem avoids_openTransfer (hb : Rare bad) (h : Sound db₀ db) (hs : Seeded db₀)
    {maxPoints : Option Int} {now createdAt : Time} {transferId userId key : String}
    {request : TransferRequest}
    (hkey : bad (.integrity .uqTransfersUserIdempotencyKey) →
      ∀ x ∈ db.transfers, ¬ (x.userId = userId ∧ x.idempotencyKey = key)) :
    Tx.Avoids bad db (openTransfer maxPoints now createdAt transferId userId request key) := by
  refine (avoids_domain hb fun e he => ?_).bind fun _ _ hrun => ?_
  · simp only [ensureDifferentPrograms] at he
    split at he
    · cases he; simp
    · cases he
  obtain ⟨_, -, e⟩ := Tx.ofExcept_ok.mp hrun
  cases e
  refine (avoids_domain hb fun e he => ?_).bind fun _ _ hrun => ?_
  · simp only [ensureWithinPlatformLimit] at he
    split at he
    · split at he
      · cases he; simp
      · cases he
    · cases he
  obtain ⟨_, -, e⟩ := Tx.ofExcept_ok.mp hrun
  cases e
  exact avoids_debitSource hb h hs hkey

/-- The fault that tells a debit its key is taken. -/
def Fault.KeyTaken (f : Fault) : Prop := f = .integrity .uqTransfersUserIdempotencyKey

theorem keyTaken_rare : Rare Fault.KeyTaken where
  ledger := fun _ h => by cases h
  integrity := fun c hc => by cases hc; rfl
  data := fun _ h => by cases h
  lookup := fun _ h => by cases h
  runtime := fun _ h => by cases h
  domain := fun _ h => by cases h

/-- A debit that collides on its key meets a transfer with that key. -/
theorem openTransfer_collided (h : Sound db₀ db) (hs : Seeded db₀) {maxPoints : Option Int}
    {now createdAt : Time} {transferId userId key : String} {request : TransferRequest}
    (hrun : (openTransfer maxPoints now createdAt transferId userId request key).run db =
      .error (.integrity .uqTransfersUserIdempotencyKey)) :
    ∃ t ∈ db.transfers, t.userId = userId ∧ t.idempotencyKey = key := by
  by_contra hno
  exact avoids_openTransfer keyTaken_rare h hs (fun _ x hx hk => hno ⟨x, hx, hk⟩) _ hrun rfl

/-- And it has passed every check made before the INSERT. -/
theorem openTransfer_collided_passes (h : Sound db₀ db) (hs : Seeded db₀)
    {maxPoints : Option Int} {now createdAt : Time} {transferId userId key : String}
    {request : TransferRequest}
    (hrun : (openTransfer maxPoints now createdAt transferId userId request key).run db =
      .error (.integrity .uqTransfersUserIdempotencyKey)) :
    Passes maxPoints db now userId request := by
  have hdomain : ∀ {x : Except DomainError Unit} {c : Constraint},
      x.mapError Fault.domain ≠ .error (.integrity c) := by
    intro x c heq
    cases x <;> cases heq
  rcases Tx.bind_error.mp hrun with hdiff | ⟨_, _, hdiff, hrun⟩
  · exact absurd (Tx.ofExcept_error.mp hdiff) hdomain
  obtain ⟨_, hdifferent, e⟩ := Tx.ofExcept_ok.mp hdiff
  cases e
  rcases Tx.bind_error.mp hrun with hlimit | ⟨_, _, hlimit, hrun⟩
  · exact absurd (Tx.ofExcept_error.mp hlimit) hdomain
  obtain ⟨_, hwithin, e⟩ := Tx.ofExcept_ok.mp hlimit
  cases e
  rcases Tx.bind_error.mp hrun with hterms | ⟨terms, _, hterms, -⟩
  · exact absurd rfl (avoids_debitTerms keyTaken_rare _ _ _ _ hterms)
  · exact ⟨mapError_ok.mp hdifferent, mapError_ok.mp hwithin, terms,
      ((debitTerms_ok (h.accountIds hs)).mp hterms).1⟩

end

/-! ## The later transactions -/

section

variable {bad : Fault → Prop}

theorem avoids_settleTransfer (hb : Quiet bad) (h : Sound db₀ db) (hs : Seeded db₀)
    (ht : db.transfer? t.id = some t) (hv : t.status ∈ verifiableStatuses) {wall : Time}
    {confirmationId reason : String} {metadata : List (String × Json.Value)} :
    Tx.Avoids bad db (settleTransfer wall t confirmationId reason metadata) := by
  have hn := h.accountIds hs
  refine (avoids_getSystemAccount hb _ _).bind fun c _ hc => ?_
  obtain ⟨hc, rfl⟩ := getSystemAccount_ok.mp hc
  refine (avoids_getSystemAccount hb _ _).bind fun s _ hset => ?_
  obtain ⟨hset, rfl⟩ := getSystemAccount_ok.mp hset
  refine (avoids_getSystemAccount hb _ _).bind fun d _ hd => ?_
  obtain ⟨hd, rfl⟩ := getSystemAccount_ok.mp hd
  refine (avoids_lockAccountsForUpdate hb _).bind fun accounts _ hlock => ?_
  obtain ⟨-, rfl, rfl⟩ := lockAccountsForUpdate_ok.mp hlock
  refine (avoids_lockedAccount hb _ _).bind fun c' _ hc' => ?_
  obtain ⟨hc', rfl⟩ := lockedAccount_ok.mp hc'
  obtain rfl := lock_lookup (account?_of_systemAccount? hn hc) (by simp) hc'
  refine (avoids_lockedAccount hb _ _).bind fun s' _ hs' => ?_
  obtain ⟨hs', rfl⟩ := lockedAccount_ok.mp hs'
  obtain rfl := lock_lookup (account?_of_systemAccount? hn hset) (by simp) hs'
  refine (avoids_lockedAccount hb _ _).bind fun d' _ hd' => ?_
  obtain ⟨hd', rfl⟩ := lockedAccount_ok.mp hd'
  obtain rfl := lock_lookup (account?_of_systemAccount? hn hd) (by simp) hd'
  refine (avoids_lockedAccount hb _ _).bind fun dest _ hdest => ?_
  obtain ⟨hdest, rfl⟩ := lockedAccount_ok.mp hdest
  rw [lookup_locked (by simp)] at hdest
  have hof : (⟨c', s', d', dest⟩ : SettleAccounts).Of _ t := ⟨hc, hset, hd, hdest⟩
  refine (avoids_postJournal hb
    (h.settle_lawful hs ht (held_of_verifiable hv) hof)).bind fun _ _ _ => ?_
  refine (avoids_transition (by exact settleable_of_verifiable hv)).bind fun _ _ _ => ?_
  exact avoids_saveTransfer hb _ _ _

theorem avoids_reverseTransfer (hb : Quiet bad) (h : Sound db₀ db) (hs : Seeded db₀)
    (ht : db.transfer? t.id = some t) (hh : t.status ∈ heldStatuses)
    (hall : .reversed ∈ allowedTransitions t.status) {wall : Time} {code : TransferFailureCode}
    {message reason : String} {metadata : List (String × Json.Value)} :
    Tx.Avoids bad db (reverseTransfer wall t code message reason metadata) := by
  have hn := h.accountIds hs
  refine (avoids_getSystemAccount hb _ _).bind fun c _ hc => ?_
  obtain ⟨hc, rfl⟩ := getSystemAccount_ok.mp hc
  refine (avoids_lockAccountsForUpdate hb _).bind fun accounts _ hlock => ?_
  obtain ⟨-, rfl, rfl⟩ := lockAccountsForUpdate_ok.mp hlock
  refine (avoids_lockedAccount hb _ _).bind fun c' _ hc' => ?_
  obtain ⟨hc', rfl⟩ := lockedAccount_ok.mp hc'
  obtain rfl := lock_lookup (account?_of_systemAccount? hn hc) (by simp) hc'
  refine (avoids_lockedAccount hb _ _).bind fun s _ hsrc => ?_
  obtain ⟨hsrc, rfl⟩ := lockedAccount_ok.mp hsrc
  rw [lookup_locked (by simp)] at hsrc
  refine (avoids_postJournal hb (h.reverse_lawful hs ht hh hc hsrc)).bind fun _ _ _ => ?_
  refine (avoids_transition (by exact hall)).bind fun _ _ _ => ?_
  exact avoids_saveTransfer hb _ _ _

theorem verifiable_reversible {s : TransferStatus} (h : s ∈ verifiableStatuses) :
    .reversed ∈ allowedTransitions s := by
  cases s <;> simp [verifiableStatuses, allowedTransitions] at h ⊢

theorem avoids_applyPartnerOutcome (hb : Quiet bad) (h : Sound db₀ db) (hs : Seeded db₀)
    {verificationDelay now wall : Time} {transferId : String} {result : PartnerCreditResult} :
    Tx.Avoids bad db
      (applyPartnerOutcome verificationDelay now wall transferId result) := by
  refine (avoids_lockTransfer hb _).bind fun t _ ht => ?_
  obtain ⟨ht, rfl⟩ := lockTransfer_ok.mp ht
  have ht := transfer?_self ht
  by_cases hst : t.status = .partnerSubmitted
  · have hv : t.status ∈ verifiableStatuses := by simp [hst, verifiableStatuses]
    rw [if_neg (not_not.mpr hst)]
    simp only [recordOutcome]
    split
    · exact (avoids_settleTransfer hb h hs ht hv).bind fun _ _ _ => Tx.avoids_pure _
    · exact (avoids_reverseTransfer hb h hs ht (held_of_verifiable hv)
        (verifiable_reversible hv)).bind fun _ _ _ => Tx.avoids_pure _
    · exact (avoids_reverseTransfer hb h hs ht (held_of_verifiable hv)
        (verifiable_reversible hv)).bind fun _ _ _ => Tx.avoids_pure _
    · refine (avoids_dateAdd hb _ _).bind fun _ _ hrun => ?_
      obtain ⟨_, -, e⟩ := Tx.ofExcept_ok.mp hrun
      cases e
      refine (avoids_transition (by simp [hst, allowedTransitions])).bind fun _ _ _ => ?_
      exact (avoids_saveTransfer hb _ _ _).bind fun _ _ _ => Tx.avoids_pure _
  · rw [if_pos hst]
    exact Tx.avoids_pure _

theorem avoids_reverseInterrupted (hb : Quiet bad) (h : Sound db₀ db) (hs : Seeded db₀)
    {wall : Time}
    {transferId : String} :
    Tx.Avoids bad db (reverseInterrupted wall transferId) := by
  refine (avoids_lockTransfer hb _).bind fun t _ ht => ?_
  obtain ⟨ht, rfl⟩ := lockTransfer_ok.mp ht
  by_cases hst : t.status = .sourceDebited
  · rw [if_neg (not_not.mpr hst)]
    refine (avoids_reverseTransfer hb h hs (transfer?_self ht) ?_ ?_).bind
      fun _ _ _ => Tx.avoids_pure _
    · rw [hst]; decide
    · rw [hst]; decide
  · rw [if_pos hst]
    exact Tx.avoids_pure _

theorem avoids_startVerifying (hv : t.status ∈ verifiableStatuses) {wall : Time}
    {metadata : List (String × Json.Value)} :
    Tx.Avoids bad db
      (Tx.ofExcept (startVerifying wall t metadata) :
        DbTx (Transfer × List AuditEvent × Option Time)) := by
  obtain ⟨events, moment, hstart, -⟩ := startVerifying_run hv wall metadata
  exact Tx.Avoids.of_ok (Tx.ofExcept_ok.mpr ⟨_, hstart, rfl⟩)

theorem avoids_retryOrEscalate (hb : Quiet bad) (hv : t.status ∈ verifiableStatuses)
    {policy : ReconciliationPolicy} {now wall : Time} {metadata : List (String × Json.Value)} :
    Tx.Avoids bad db (retryOrEscalate policy now wall t metadata) := by
  refine (avoids_startVerifying hv).bind fun p _ hrun => ?_
  obtain ⟨_, hp, e⟩ := Tx.ofExcept_ok.mp hrun
  obtain ⟨events, moment, hstart, -⟩ := startVerifying_run hv wall metadata
  cases e
  cases hstart.symm.trans hp
  simp only
  split
  · refine (avoids_transition ?_).bind fun _ _ _ => ?_
    · simp [Transfer.verifying, allowedTransitions]
    · exact (avoids_saveTransfer hb _ _ _).bind fun _ _ _ => Tx.avoids_pure _
  · refine (Tx.avoids_ofExcept fun e he => ?_).bind fun _ _ _ => ?_
    · simp only [ReconciliationPolicy.backoff] at he
      split at he
      · cases he; exact hb.runtime _
      · cases he
    · refine (avoids_dateAdd hb _ _).bind fun _ _ _ => ?_
      exact (avoids_saveTransfer hb _ _ _).bind fun _ _ _ => Tx.avoids_pure _

theorem avoids_applyStatus (hb : Quiet bad) (h : Sound db₀ db) (hs : Seeded db₀)
    {policy : ReconciliationPolicy}
    {now wall : Time} {transferId : String} {answer : PartnerStatusResult} :
    Tx.Avoids bad db (applyStatus policy now wall transferId answer) := by
  refine (avoids_lockTransfer hb _).bind fun t _ ht => ?_
  obtain ⟨ht, rfl⟩ := lockTransfer_ok.mp ht
  have ht := transfer?_self ht
  by_cases hv : t.status ∈ verifiableStatuses
  · rw [if_neg (not_not.mpr hv)]
    simp only [recordStatus]
    split
    · exact (avoids_settleTransfer hb h hs ht hv).bind fun _ _ _ => Tx.avoids_pure _
    · refine (avoids_dateAdd hb _ _).bind fun _ _ hrun => ?_
      obtain ⟨_, -, e⟩ := Tx.ofExcept_ok.mp hrun
      cases e
      split
      · exact (avoids_reverseTransfer hb h hs ht (held_of_verifiable hv)
          (verifiable_reversible hv)).bind fun _ _ _ => Tx.avoids_pure _
      · refine (avoids_startVerifying hv).bind fun _ _ _ => ?_
        refine (avoids_dateAdd hb _ _).bind fun _ _ _ => ?_
        exact (avoids_saveTransfer hb _ _ _).bind fun _ _ _ => Tx.avoids_pure _
    · exact avoids_retryOrEscalate hb hv
  · rw [if_pos hv]
    exact Tx.avoids_pure _

end

end LoyaltyTransfer
