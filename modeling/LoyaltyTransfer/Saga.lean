/-
# `LoyaltyTransfer.Saga` — the transactions of a transfer

`app/domain/transfer_state.py` (`transition`) and
`app/services/transfer_service.py`.  A transfer is a series of short local
transactions, each leaving a durable state, with a compensating one when the
partner definitively fails:

    debit      quote, lock, check the balance, create the transfer      SOURCE_DEBITED
    submit     record that the partner is about to be called            PARTNER_SUBMITTED
    outcome    SUCCESS  → TRANSFER_SETTLE journal                       COMPLETED
               REJECTED, NOT_SENT → TRANSFER_REVERSAL journal           REVERSED
               UNKNOWN  → leave the points in clearing                  PENDING_VERIFICATION

The partner call between submit and outcome is in `Engine`; what a retried
request does with the unique violation of its key is there too.  `now` is what
the service's clock reads, `wall` what `datetime.now` reads in `transition`,
`createdAt` what PostgreSQL's clock reads at the start of the debit.
-/
import LoyaltyTransfer.Ledger
import LoyaltyTransfer.Rates
import LoyaltyTransfer.Partner

namespace LoyaltyTransfer

open Transaction

/-! ## Status changes -/

/-- Audit event for a new transfer. -/
def recordCreation (t : Transfer) (reason : String) : AuditEvent :=
  ⟨t.id, none, t.status, reason, []⟩

/-- Move `t` to `toStatus` and append the audit event; `updated_at` is set to `moment`
when the row is saved. -/
def transition (t : Transfer) (toStatus : TransferStatus) (reason : String)
    (metadata : List (String × Json.Value)) (moment : Time) :
    Except Fault (Transfer × AuditEvent) :=
  if canTransition t.status toStatus then
    .ok ({ t with
        status := toStatus
        completedAt := if toStatus ∈ finalStatuses then some moment else t.completedAt },
      ⟨t.id, some t.status, toStatus, reason, metadata⟩)
  else .error (.invalidStateTransition t.id t.status toStatus)

def lockTransfer (transferId : String) : DbTx Transfer := do
  let db ← get
  Tx.ofOption (db.transfer? transferId) (.lookup s!"transfer {transferId} does not exist")

/-! ## Step 1: debit -/

structure TransferRequest where
  sourceProgram : String
  destinationProgram : String
  sourcePoints : Int
  deriving DecidableEq

/-- `_DebitedTransfer`: what the later steps of the saga need. -/
structure DebitedTransfer where
  transferId : String
  partnerCode : String
  memberId : String
  destinationPoints : Int
  deriving DecidableEq

/-- `_user_account`. -/
def userAccount (userId : String) (program : ProgramRef) : DbTx Account := do
  let account ← getUserAccount userId program.id
  Tx.ofOption account (.domain {
    code := .accountNotFound
    detail := s!"You have no {program.code} account linked."
    extra := [("program", .str program.code)] })

def insufficientBalance (program : ProgramRef) (sourcePoints : Int) : DomainError where
  code := .insufficientBalance
  detail := s!"Your {program.code} balance is lower than {sourcePoints}."

/-- What the debit has established once its checks passed. -/
structure DebitTerms where
  route : RouteConfig
  rate : RateRule
  conversion : Conversion
  source : Account
  destination : Account
  clearing : Account
  partnerCode : String
  memberId : String

/-- The reads and checks of `_debit_source`, up to the balance check. -/
def debitTerms (now : Time) (userId : String) (request : TransferRequest) : DbTx DebitTerms := do
  let db ← get
  let route ← Tx.ofExcept
    ((db.getRoute request.sourceProgram request.destinationProgram now).mapError Fault.domain)
  let rate ← Tx.ofExcept ((ensureRouteUsable route).mapError Fault.domain)
  let conversion ← Tx.ofExcept
    ((calculateConversion rate request.sourcePoints route.bonus now).mapError Fault.domain)
  let source ← userAccount userId route.source
  let destination ← userAccount userId route.destination
  let destinationProgram ← Tx.ofOption (db.program? route.destination.id)
    (.runtime "destination program or member id missing")
  let memberId ← Tx.ofOption destination.externalMemberId
    (.runtime "destination program or member id missing")
  let clearing ← getSystemAccount route.source.id .transferClearing
  let locked ← lockAccountsForUpdate [source.id, clearing.id]
  let source ← lockedAccount locked source.id
  let clearing ← lockedAccount locked clearing.id
  Tx.failIf (source.balance < request.sourcePoints)
    (.domain (insufficientBalance route.source request.sourcePoints))
  pure {
    route, rate, conversion, source, destination, clearing, memberId
    partnerCode := destinationProgram.partnerCode }

/-- The row a debit inserts. -/
def DebitTerms.transfer (terms : DebitTerms) (transferId userId key : String) (createdAt : Time) :
    Transfer where
  id := transferId
  userId := userId
  idempotencyKey := key
  sourceProgramId := terms.route.source.id
  destinationProgramId := terms.route.destination.id
  sourceAccountId := terms.source.id
  destinationAccountId := terms.destination.id
  sourcePoints := terms.conversion.sourcePoints
  basePoints := terms.conversion.basePoints
  bonusPoints := terms.conversion.bonusPoints
  destinationPoints := terms.conversion.destinationPoints
  rateId := terms.rate.rateId
  rateSnapshot := terms.conversion.snapshot
  status := .pending
  failureCode := none
  failureMessage := none
  partnerReference := some transferId
  partnerConfirmationId := none
  verificationAttempts := 0
  nextVerificationAt := none
  createdAt := createdAt
  completedAt := none

/-- The writes of `_debit_source`. -/
def recordDebit (now : Time) (t : Transfer) (source clearing : Account) (sourcePoints : Int) :
    DbTx Unit := do
  beginAt t.createdAt
  insertTransfer t
  insertEvents [recordCreation t "transfer_requested"]
  let journal ← postJournal .transferDebit
    [Posting.debit source sourcePoints, Posting.credit clearing sourcePoints] (some t.id)
  let (t, event) ← Tx.ofExcept (transition t .sourceDebited "source_points_debited"
    [("journal_id", .int journal.id)] now)
  saveTransfer t [event] (some now)

/-- `_debit_source`. -/
def debitSource (now createdAt : Time) (transferId userId : String) (request : TransferRequest)
    (key : String) : DbTx DebitedTransfer := do
  let terms ← debitTerms now userId request
  recordDebit now (terms.transfer transferId userId key createdAt) terms.source terms.clearing
    request.sourcePoints
  pure {
    transferId
    partnerCode := terms.partnerCode
    memberId := terms.memberId
    destinationPoints := terms.conversion.destinationPoints }

/-- What `create_transfer` does up to the commit of the debit. -/
def openTransfer (maxTransferPoints : Option Int) (now createdAt : Time)
    (transferId userId : String)
    (request : TransferRequest) (key : String) : DbTx DebitedTransfer := do
  Tx.ofExcept ((ensureDifferentPrograms request.sourceProgram
    request.destinationProgram).mapError Fault.domain)
  Tx.ofExcept ((ensureWithinPlatformLimit request.sourcePoints
    maxTransferPoints).mapError Fault.domain)
  debitSource now createdAt transferId userId request key

/-- `_find_by_idempotency_key`. -/
def findByIdempotencyKey (userId key : String) : DbTx String := do
  let db ← get
  let t ← Tx.ofOption (db.transferByKey? userId key)
    (.runtime "unique violation on idempotency key but no transfer found")
  pure t.id

/-! ## Step 2: submit -/

/-- `_mark_submitted`. -/
def markSubmitted (now : Time) (transferId partnerCode : String) : DbTx Unit := do
  let t ← lockTransfer transferId
  let (t, event) ← Tx.ofExcept (transition t .partnerSubmitted "partner_credit_requested"
    [("partner", .str partnerCode)] now)
  saveTransfer t [event] (some now)

/-! ## Shared steps: settle and reverse -/

/-- COMPLETED: source clearing → source settlement, destination settlement → user. -/
def settleTransfer (wall : Time) (t : Transfer) (confirmationId reason : String)
    (metadata : List (String × Json.Value)) : DbTx Unit := do
  let sourceClearing ← getSystemAccount t.sourceProgramId .transferClearing
  let sourceSettlement ← getSystemAccount t.sourceProgramId .partnerSettlement
  let destinationSettlement ← getSystemAccount t.destinationProgramId .partnerSettlement
  let accounts ← lockAccountsForUpdate [sourceClearing.id, sourceSettlement.id,
    destinationSettlement.id, t.destinationAccountId]
  let sourceClearing ← lockedAccount accounts sourceClearing.id
  let sourceSettlement ← lockedAccount accounts sourceSettlement.id
  let destinationSettlement ← lockedAccount accounts destinationSettlement.id
  let destination ← lockedAccount accounts t.destinationAccountId
  let _ ← postJournal .transferSettle
    [Posting.debit sourceClearing t.sourcePoints,
      Posting.credit sourceSettlement t.sourcePoints,
      Posting.debit destinationSettlement t.destinationPoints,
      Posting.credit destination t.destinationPoints] (some t.id)
  let (t, event) ← Tx.ofExcept (transition
    { t with partnerConfirmationId := some confirmationId, nextVerificationAt := none }
    .completed reason (metadata ++ [("confirmation_id", .str confirmationId)]) wall)
  saveTransfer t [event] (some wall)

/-- REVERSED (compensation): source clearing → user source account, in full. -/
def reverseTransfer (wall : Time) (t : Transfer) (failureCode : TransferFailureCode)
    (failureMessage reason : String) (metadata : List (String × Json.Value)) : DbTx Unit := do
  let clearing ← getSystemAccount t.sourceProgramId .transferClearing
  let accounts ← lockAccountsForUpdate [clearing.id, t.sourceAccountId]
  let clearing ← lockedAccount accounts clearing.id
  let source ← lockedAccount accounts t.sourceAccountId
  let _ ← postJournal .transferReversal
    [Posting.debit clearing t.sourcePoints, Posting.credit source t.sourcePoints] (some t.id)
  let (t, event) ← Tx.ofExcept (transition
    { t with
      failureCode := some failureCode
      failureMessage := some failureMessage
      nextVerificationAt := none }
    .reversed reason (metadata ++ [("failure_code", .str failureCode.value)]) wall)
  saveTransfer t [event] (some wall)

/-! ## Step 4: outcome -/

def outcomeMetadata (result : PartnerCreditResult) : List (String × Json.Value) :=
  [("partner_outcome", .str result.outcome.value), ("partner_reason", .str result.reason),
    ("attempts", .int result.attempts),
    ("http_status", match result.httpStatus with | some n => .int n | none => .null)]

/-- What `_apply_partner_outcome` does with a transfer it found PARTNER_SUBMITTED. -/
def recordOutcome (verificationDelay now wall : Time) (t : Transfer)
    (result : PartnerCreditResult) : DbTx TransferStatus := do
  let metadata := outcomeMetadata result
  match result.outcome, nonempty result.confirmationId with
  | .success, some confirmationId =>
      settleTransfer wall t confirmationId "partner_confirmed_credit" metadata
      pure .completed
  | .rejected, _ =>
      reverseTransfer wall t .partnerRejected
        s!"The partner rejected the credit ({result.reason}). Points were returned."
        "partner_rejected_credit" metadata
      pure .reversed
  | .notSent, _ =>
      reverseTransfer wall t .partnerUnavailable
        "The partner could not be reached. Points were returned." "partner_not_reached" metadata
      pure .reversed
  | _, _ =>
      -- UNKNOWN, and a SUCCESS without a confirmation id: never guess
      let next ← Tx.ofExcept (dateAdd now verificationDelay)
      let (t, event) ← Tx.ofExcept (transition { t with nextVerificationAt := some next }
        .pendingVerification "partner_outcome_unknown" metadata now)
      saveTransfer t [event] (some now)
      pure .pendingVerification

/-- `_apply_partner_outcome`: record the partner's answer, unless another actor
already moved the transfer on. -/
def applyPartnerOutcome (verificationDelay now wall : Time) (transferId : String)
    (result : PartnerCreditResult) : DbTx TransferStatus := do
  let t ← lockTransfer transferId
  if t.status ≠ .partnerSubmitted then pure t.status
  else recordOutcome verificationDelay now wall t result

/-! ## What the transactions do

For each transaction, when it commits and the state it leaves.  The account
ids are a primary key, so the row read under a lock is the row found before.
-/

theorem mapError_ok {ε ε' α : Type} {f : ε → ε'} {x : Except ε α} {a : α} :
    x.mapError f = .ok a ↔ x = .ok a := by
  cases x <;> simp [Except.mapError]

/-- The row after a status change. -/
def Transfer.movedTo (t : Transfer) (toStatus : TransferStatus) (moment : Time) : Transfer :=
  { t with
    status := toStatus
    completedAt := if toStatus ∈ finalStatuses then some moment else t.completedAt }

theorem transition_ok {t : Transfer} {toStatus : TransferStatus} {reason : String}
    {metadata : List (String × Json.Value)} {moment : Time} {r : Transfer × AuditEvent} :
    transition t toStatus reason metadata moment = .ok r ↔
      toStatus ∈ allowedTransitions t.status ∧
        r = (t.movedTo toStatus moment, ⟨t.id, some t.status, toStatus, reason, metadata⟩) := by
  simp only [transition, canTransition, decide_eq_true_eq]
  by_cases h : toStatus ∈ allowedTransitions t.status
  · rw [if_pos h]
    simp only [h, true_and, Except.ok.injEq]
    exact eq_comm
  · simp [h]

theorem lockTransfer_ok {db db' : Database} {id : String} {t : Transfer} :
    (lockTransfer id).run db = .ok (t, db') ↔ db.transfer? id = some t ∧ db' = db := by
  simp only [lockTransfer, Tx.bind_ok, Tx.get_ok, Tx.ofOption_ok]
  constructor
  · rintro ⟨_, _, e₁, _, h, e₂⟩
    cases e₁; cases e₂
    exact ⟨h, rfl⟩
  · rintro ⟨h, rfl⟩
    exact ⟨_, _, rfl, t, h, rfl⟩

theorem userAccount_ok {db db' : Database} {userId : String} {program : ProgramRef}
    {a : Account} :
    (userAccount userId program).run db = .ok (a, db') ↔
      db.userAccount? userId program.id = some a ∧ db' = db := by
  simp only [userAccount, getUserAccount, Tx.bind_ok, Tx.get_ok, Tx.pure_ok, Tx.ofOption_ok]
  constructor
  · rintro ⟨_, _, ⟨_, _, e₁, e₂⟩, _, h, e₃⟩
    cases e₁; cases e₂; cases e₃
    exact ⟨h, rfl⟩
  · rintro ⟨h, rfl⟩
    exact ⟨_, _, ⟨_, _, rfl, rfl⟩, a, h, rfl⟩

theorem getSystemAccount_ok {db db' : Database} {programId : Nat} {accountType : AccountType}
    {a : Account} :
    (getSystemAccount programId accountType).run db = .ok (a, db') ↔
      db.systemAccount? programId accountType = some a ∧ db' = db := by
  simp only [getSystemAccount, Tx.bind_ok, Tx.get_ok, Tx.ofOption_ok]
  constructor
  · rintro ⟨_, _, e₁, _, h, e₂⟩
    cases e₁; cases e₂
    exact ⟨h, rfl⟩
  · rintro ⟨h, rfl⟩
    exact ⟨_, _, rfl, a, h, rfl⟩

theorem lockedAccount_ok {db db' : Database} {accounts : List Account} {id : Nat} {a : Account} :
    (lockedAccount accounts id).run db = .ok (a, db') ↔
      Table.lookup Account.id id accounts = some a ∧ db' = db := by
  simp only [lockedAccount, Tx.ofOption_ok]
  constructor
  · rintro ⟨_, h, e⟩
    cases e
    exact ⟨h, rfl⟩
  · rintro ⟨h, rfl⟩
    exact ⟨a, h, rfl⟩

section

variable {db db' : Database}

/-- What the debit's reads and checks establish: the request passes every check
made before the INSERT. -/
structure Priced (db : Database) (now : Time) (userId : String) (request : TransferRequest)
    (terms : DebitTerms) : Prop where
  route : db.getRoute request.sourceProgram request.destinationProgram now = .ok terms.route
  rate : ensureRouteUsable terms.route = .ok terms.rate
  conversion :
    calculateConversion terms.rate request.sourcePoints terms.route.bonus now =
      .ok terms.conversion
  source : db.userAccount? userId terms.route.source.id = some terms.source
  destination : db.userAccount? userId terms.route.destination.id = some terms.destination
  partner : ∃ p, db.program? terms.route.destination.id = some p ∧ p.partnerCode = terms.partnerCode
  member : terms.destination.externalMemberId = some terms.memberId
  clearing : db.systemAccount? terms.route.source.id .transferClearing = some terms.clearing
  balance : request.sourcePoints ≤ terms.source.balance

theorem account?_of_mem (hn : (db.accounts.map Account.id).Nodup) {a : Account}
    (ha : a ∈ db.accounts) : db.account? a.id = some a := Table.lookup_of_mem hn ha

theorem account?_of_systemAccount? (hn : (db.accounts.map Account.id).Nodup) {programId : Nat}
    {accountType : AccountType} {a : Account}
    (h : db.systemAccount? programId accountType = some a) : db.account? a.id = some a :=
  account?_of_mem hn (systemAccount?_spec h).1

theorem account?_of_userAccount? (hn : (db.accounts.map Account.id).Nodup) {userId : String}
    {programId : Nat} {a : Account} (h : db.userAccount? userId programId = some a) :
    db.account? a.id = some a :=
  account?_of_mem hn (userAccount?_spec h).1

/-- An account is among the locked rows as the table has it. -/
theorem lookup_lock {ids : List Nat} {id : Nat} {a : Account} (ha : db.account? id = some a)
    (hid : id ∈ ids) :
    Table.lookup Account.id id (db.accounts.filter fun a => decide (a.id ∈ ids)) = some a := by
  rw [lookup_locked hid]
  exact ha

theorem lock_lookup {ids : List Nat} {a a' : Account}
    (ha : db.account? a.id = some a) (hid : a.id ∈ ids)
    (h : Table.lookup Account.id a.id (db.accounts.filter fun a => decide (a.id ∈ ids)) =
      some a') : a' = a := by
  rw [lookup_locked hid] at h
  exact (Option.some.inj (ha.symm.trans h)).symm

theorem debitTerms_ok (hn : (db.accounts.map Account.id).Nodup) {now : Time} {userId : String}
    {request : TransferRequest} {terms : DebitTerms} :
    (debitTerms now userId request).run db = .ok (terms, db') ↔
      Priced db now userId request terms ∧ db' = db := by
  simp only [debitTerms, Tx.bind_ok, Tx.get_ok, Tx.ofExcept_ok, mapError_ok, userAccount_ok,
    Tx.ofOption_ok, getSystemAccount_ok, lockAccountsForUpdate_ok, lockedAccount_ok, Tx.failIf_ok,
    Tx.pure_ok]
  constructor
  · rintro ⟨_, _, e₁, route, _, ⟨_, hroute, e₂⟩, rate, _, ⟨_, hrate, e₃⟩, conv, _, ⟨_, hconv, e₄⟩,
      source, _, ⟨hsource, e₅⟩, dest, _, ⟨hdest, e₆⟩, program, _, ⟨_, hprogram, e₇⟩, member, _,
      ⟨_, hmember, e₈⟩, clearing, _, ⟨hclearing, e₉⟩, _, _, ⟨-, rfl, e₁₀⟩, source', _,
      ⟨hsource', e₁₁⟩, clearing', _, ⟨hclearing', e₁₂⟩, _, _, ⟨hbal, e₁₃⟩, e₁₄⟩
    cases e₁; cases e₂; cases e₃; cases e₄; cases e₅; cases e₆; cases e₇; cases e₈; cases e₉
    cases e₁₀; cases e₁₁; cases e₁₂; cases e₁₃; cases e₁₄
    obtain rfl := lock_lookup (account?_of_userAccount? hn hsource) (by simp) hsource'
    obtain rfl := lock_lookup (account?_of_systemAccount? hn hclearing) (by simp) hclearing'
    exact ⟨⟨hroute, hrate, hconv, hsource, hdest, ⟨_, hprogram, rfl⟩, hmember, hclearing,
      not_lt.mp hbal⟩, rfl⟩
  · rintro ⟨⟨hroute, hrate, hconv, hsource, hdest, ⟨p, hp, hpc⟩, hmember, hclearing, hbal⟩, rfl⟩
    have hs := (userAccount?_spec hsource).1
    have hc := (systemAccount?_spec hclearing).1
    refine ⟨_, _, rfl, _, _, ⟨_, hroute, rfl⟩, _, _, ⟨_, hrate, rfl⟩, _, _, ⟨_, hconv, rfl⟩,
      _, _, ⟨hsource, rfl⟩, _, _, ⟨hdest, rfl⟩, _, _, ⟨_, hp, rfl⟩, _, _, ⟨_, hmember, rfl⟩,
      _, _, ⟨hclearing, rfl⟩, _, _, ⟨?_, rfl, rfl⟩, terms.source, _, ⟨?_, rfl⟩, terms.clearing, _,
      ⟨?_, rfl⟩, (), _, ⟨not_lt.mpr hbal, rfl⟩, by rw [hpc]⟩
    · intro id hid
      rcases List.mem_cons.mp hid with rfl | hid
      · exact ⟨_, hs, rfl⟩
      · rcases List.mem_cons.mp hid with rfl | hid
        · exact ⟨_, hc, rfl⟩
        · cases hid
    · exact lookup_lock (account?_of_userAccount? hn hsource) (by simp)
    · exact lookup_lock (account?_of_systemAccount? hn hclearing) (by simp)

/-- The two postings of a debit. -/
def debitPostings (source clearing : Account) (points : Int) : List Posting :=
  [Posting.debit source points, Posting.credit clearing points]

/-- The audit trail of a debit. -/
def debitEvents (db : Database) (t : Transfer) : List TransferEvent :=
  [(recordCreation t "transfer_requested").insertedAt t.createdAt,
    AuditEvent.insertedAt t.createdAt
      ⟨t.id, some t.status, .sourceDebited, "source_points_debited",
        [("journal_id", .int (Table.nextId LedgerJournal.id db.ledgerJournals : Nat))]⟩]

/-- The state with the transfer `t` in it and its source points in clearing, after a
transaction that began when the row was created. -/
def opened (db : Database) (t : Transfer) (source clearing : Account)
    (events : List TransferEvent) (moment : Time) : Database :=
  { posted db .transferDebit (debitPostings source clearing t.sourcePoints) (some t.id) with
    transfers := db.transfers ++ [t]
    transferEvents := db.transferEvents ++ events
    updatedAt := (db.updatedAt.moved
      (netChange (debitPostings source clearing t.sourcePoints)) t.createdAt).touch t.id moment
    clock := t.createdAt }

theorem replace_append_fresh {transfers : List Transfer} {t : Transfer}
    (h : ∀ x ∈ transfers, x.id ≠ t.id) (t' : Transfer) (hid : t'.id = t.id) :
    Table.replace Transfer.id t' (transfers ++ [t]) = transfers ++ [t'] := by
  have hold : Table.replace Transfer.id t' transfers = transfers :=
    Table.replace_of_not_mem fun x hx => by rw [hid]; exact h x hx
  rw [Table.replace, List.map_append]
  exact congrArg₂ (· ++ ·) hold (by simp [hid])

/-- What a debit's writes require, and the state they leave. -/
theorem recordDebit_ok {now : Time} {t : Transfer} {source clearing : Account} {u : Unit}
    (h : (recordDebit now t source clearing t.sourcePoints).run db = .ok (u, db')) :
    Insertable db t ∧
      Postable { db with transfers := db.transfers ++ [t] } .transferDebit
        (debitPostings source clearing t.sourcePoints) (some t.id) ∧
      .sourceDebited ∈ allowedTransitions t.status ∧
      db' = opened db (t.movedTo .sourceDebited now) source clearing (debitEvents db t) now := by
  simp only [recordDebit, Tx.bind_ok, beginAt_ok, insertTransfer_ok, insertEvents_ok,
    postJournal_ok, Tx.ofExcept_ok, transition_ok, saveTransfer_ok] at h
  obtain ⟨_, _, rfl, _, _, ⟨hins, rfl⟩, _, _, ⟨-, rfl⟩, _, _, ⟨hpost, rfl, rfl⟩, _, _,
    ⟨_, ⟨hall, rfl⟩, e⟩, -, -, rfl⟩ := h
  cases e
  replace hins := hins.of_clock
  obtain ⟨⟨hvalid, hlink, hfresh, htransfer, haccounts, hcovered⟩, hamounts, hchanges, hbalances⟩ :=
    hpost
  refine ⟨hins, ⟨⟨hvalid, hlink, hfresh, htransfer, haccounts, hcovered⟩, hamounts, hchanges,
    hbalances⟩, hall, ?_⟩
  rw [saved, flushedAt_created
    (by simp [posted, UpdatedAt.moved, UpdatedAt.touch, Transfer.movedTo])]
  simp only [posted, opened, List.append_assoc]
  rw [replace_append_fresh hins.id (t.movedTo .sourceDebited now) rfl, UpdatedAt.touch_moved]
  have hid : (t.movedTo .sourceDebited now).id = t.id := rfl
  rw [hid, UpdatedAt.touch_touch]
  rfl

theorem debitSource_ok (hn : (db.accounts.map Account.id).Nodup) {now createdAt : Time}
    {transferId userId key : String} {request : TransferRequest} {d : DebitedTransfer}
    (h : (debitSource now createdAt transferId userId request key).run db = .ok (d, db')) :
    ∃ terms, Priced db now userId request terms ∧
      d = ⟨transferId, terms.partnerCode, terms.memberId, terms.conversion.destinationPoints⟩ ∧
      Insertable db (terms.transfer transferId userId key createdAt) ∧
      Postable { db with transfers := db.transfers ++
          [terms.transfer transferId userId key createdAt] } .transferDebit
        (debitPostings terms.source terms.clearing request.sourcePoints) (some transferId) ∧
      db' = opened db
        ((terms.transfer transferId userId key createdAt).movedTo .sourceDebited now)
        terms.source terms.clearing
        (debitEvents db (terms.transfer transferId userId key createdAt)) now := by
  simp only [debitSource, Tx.bind_ok, debitTerms_ok hn, Tx.pure_ok] at h
  obtain ⟨terms, _, ⟨hpriced, rfl⟩, _, _, hrec, e⟩ := h
  cases e
  have hpts : (terms.transfer transferId userId key createdAt).sourcePoints =
      request.sourcePoints := calculateConversion_ok hpriced.conversion
  rw [← hpts] at hrec
  obtain ⟨hins, hpost, -, rfl⟩ := recordDebit_ok hrec
  rw [hpts] at hpost
  exact ⟨terms, hpriced, rfl, hins, hpost, rfl⟩

theorem markSubmitted_ok {now : Time} {transferId partnerCode : String} {u : Unit} :
    (markSubmitted now transferId partnerCode).run db = .ok (u, db') ↔
      ∃ t, db.transfer? transferId = some t ∧ .partnerSubmitted ∈ allowedTransitions t.status ∧
        (t.movedTo .partnerSubmitted now).checked = .ok () ∧
        fitsJsonbFields [("partner", .str partnerCode)] = true ∧
        db' = saved db (t.movedTo .partnerSubmitted now)
          [AuditEvent.insertedAt db.clock
            ⟨t.id, some t.status, .partnerSubmitted, "partner_credit_requested",
              [("partner", .str partnerCode)]⟩] (some now) := by
  simp only [markSubmitted, Tx.bind_ok, lockTransfer_ok, Tx.ofExcept_ok, transition_ok,
    saveTransfer_ok]
  constructor
  · rintro ⟨t, _, ⟨ht, rfl⟩, _, _, ⟨_, ⟨hall, rfl⟩, e⟩, hck, hev, rfl⟩
    cases e
    exact ⟨t, ht, hall, hck, hev _ (List.mem_singleton_self _), rfl⟩
  · rintro ⟨t, ht, hall, hck, hev, rfl⟩
    exact ⟨t, db, ⟨ht, rfl⟩, _, db, ⟨_, ⟨hall, rfl⟩, rfl⟩, hck, by simpa using hev, rfl⟩

/-! ### Settling and reversing -/

/-- The accounts a settlement touches. -/
structure SettleAccounts where
  sourceClearing : Account
  sourceSettlement : Account
  destinationSettlement : Account
  destination : Account

/-- They are the ones the transfer names. -/
structure SettleAccounts.Of (accts : SettleAccounts) (db : Database) (t : Transfer) : Prop where
  sourceClearing :
    db.systemAccount? t.sourceProgramId .transferClearing = some accts.sourceClearing
  sourceSettlement :
    db.systemAccount? t.sourceProgramId .partnerSettlement = some accts.sourceSettlement
  destinationSettlement :
    db.systemAccount? t.destinationProgramId .partnerSettlement = some accts.destinationSettlement
  destination : db.account? t.destinationAccountId = some accts.destination

def settlePostings (accts : SettleAccounts) (t : Transfer) : List Posting :=
  [Posting.debit accts.sourceClearing t.sourcePoints,
    Posting.credit accts.sourceSettlement t.sourcePoints,
    Posting.debit accts.destinationSettlement t.destinationPoints,
    Posting.credit accts.destination t.destinationPoints]

/-- The row of a completed transfer. -/
def Transfer.settledAs (t : Transfer) (confirmationId : String) (wall : Time) : Transfer :=
  { t with
    partnerConfirmationId := some confirmationId
    nextVerificationAt := none
    status := .completed
    completedAt := some wall }

/-- The row of a reversed transfer. -/
def Transfer.reversedAs (t : Transfer) (failureCode : TransferFailureCode)
    (failureMessage : String) (wall : Time) : Transfer :=
  { t with
    failureCode := some failureCode
    failureMessage := some failureMessage
    nextVerificationAt := none
    status := .reversed
    completedAt := some wall }

theorem settleTransfer_ok (hn : (db.accounts.map Account.id).Nodup) {wall : Time} {t : Transfer}
    {confirmationId reason : String} {metadata : List (String × Json.Value)} {u : Unit} :
    (settleTransfer wall t confirmationId reason metadata).run db = .ok (u, db') ↔
      ∃ accts : SettleAccounts, accts.Of db t ∧
        Postable db .transferSettle (settlePostings accts t) (some t.id) ∧
        .completed ∈ allowedTransitions t.status ∧
        (t.settledAs confirmationId wall).checked = .ok () ∧
        fitsJsonbFields (metadata ++ [("confirmation_id", .str confirmationId)]) = true ∧
        db' = saved (posted db .transferSettle (settlePostings accts t) (some t.id))
          (t.settledAs confirmationId wall)
          [AuditEvent.insertedAt db.clock ⟨t.id, some t.status, .completed, reason,
            metadata ++ [("confirmation_id", .str confirmationId)]⟩] (some wall) := by
  simp only [settleTransfer, Tx.bind_ok, getSystemAccount_ok, lockAccountsForUpdate_ok,
    lockedAccount_ok, postJournal_ok, Tx.ofExcept_ok, transition_ok, saveTransfer_ok]
  constructor
  · rintro ⟨c, _, ⟨hc, rfl⟩, s, _, ⟨hs, rfl⟩, d, _, ⟨hd, rfl⟩, _, _, ⟨-, rfl, rfl⟩,
      c', _, ⟨hc', rfl⟩, s', _, ⟨hs', rfl⟩, d', _, ⟨hd', rfl⟩, dest, _, ⟨hdest, rfl⟩,
      _, _, ⟨hpost, rfl, rfl⟩, _, _, ⟨_, ⟨hall, rfl⟩, e⟩, hck, hev, rfl⟩
    cases e
    obtain rfl := lock_lookup (account?_of_systemAccount? hn hc) (by simp) hc'
    obtain rfl := lock_lookup (account?_of_systemAccount? hn hs) (by simp) hs'
    obtain rfl := lock_lookup (account?_of_systemAccount? hn hd) (by simp) hd'
    rw [lookup_locked (by simp)] at hdest
    exact ⟨⟨c', s', d', dest⟩, ⟨hc, hs, hd, hdest⟩, hpost, hall, hck,
      hev _ (List.mem_singleton_self _), rfl⟩
  · rintro ⟨⟨c, s, d, dest⟩, ⟨hc, hs, hd, hdest⟩, hpost, hall, hck, hev, rfl⟩
    refine ⟨c, db, ⟨hc, rfl⟩, s, db, ⟨hs, rfl⟩, d, db, ⟨hd, rfl⟩, _, db, ⟨?_, rfl, rfl⟩,
      c, db, ⟨?_, rfl⟩, s, db, ⟨?_, rfl⟩, d, db, ⟨?_, rfl⟩, dest, db, ⟨?_, rfl⟩,
      _, _, ⟨hpost, rfl, rfl⟩, _, _, ⟨_, ⟨hall, rfl⟩, rfl⟩, hck, by simpa using hev, rfl⟩
    · intro id hid
      simp only [List.mem_cons, List.not_mem_nil, or_false] at hid
      rcases hid with rfl | rfl | rfl | rfl
      · exact ⟨c, (systemAccount?_spec hc).1, rfl⟩
      · exact ⟨s, (systemAccount?_spec hs).1, rfl⟩
      · exact ⟨d, (systemAccount?_spec hd).1, rfl⟩
      · exact ⟨dest, Table.lookup_mem hdest, Table.lookup_key hdest⟩
    · exact lookup_lock (account?_of_systemAccount? hn hc) (by simp)
    · exact lookup_lock (account?_of_systemAccount? hn hs) (by simp)
    · exact lookup_lock (account?_of_systemAccount? hn hd) (by simp)
    · exact lookup_lock hdest (by simp)

/-- The two postings of a reversal. -/
def reversePostings (clearing source : Account) (points : Int) : List Posting :=
  [Posting.debit clearing points, Posting.credit source points]

theorem reverseTransfer_ok (hn : (db.accounts.map Account.id).Nodup) {wall : Time} {t : Transfer}
    {failureCode : TransferFailureCode} {failureMessage reason : String}
    {metadata : List (String × Json.Value)} {u : Unit} :
    (reverseTransfer wall t failureCode failureMessage reason metadata).run db = .ok (u, db') ↔
      ∃ clearing source, db.systemAccount? t.sourceProgramId .transferClearing = some clearing ∧
        db.account? t.sourceAccountId = some source ∧
        Postable db .transferReversal (reversePostings clearing source t.sourcePoints)
          (some t.id) ∧
        .reversed ∈ allowedTransitions t.status ∧
        (t.reversedAs failureCode failureMessage wall).checked = .ok () ∧
        fitsJsonbFields (metadata ++ [("failure_code", .str failureCode.value)]) = true ∧
        db' = saved
          (posted db .transferReversal (reversePostings clearing source t.sourcePoints)
            (some t.id))
          (t.reversedAs failureCode failureMessage wall)
          [AuditEvent.insertedAt db.clock ⟨t.id, some t.status, .reversed, reason,
            metadata ++ [("failure_code", .str failureCode.value)]⟩] (some wall) := by
  simp only [reverseTransfer, Tx.bind_ok, getSystemAccount_ok, lockAccountsForUpdate_ok,
    lockedAccount_ok, postJournal_ok, Tx.ofExcept_ok, transition_ok, saveTransfer_ok]
  constructor
  · rintro ⟨c, _, ⟨hc, rfl⟩, _, _, ⟨-, rfl, rfl⟩, c', _, ⟨hc', rfl⟩, s, _, ⟨hs, rfl⟩,
      _, _, ⟨hpost, rfl, rfl⟩, _, _, ⟨_, ⟨hall, rfl⟩, e⟩, hck, hev, rfl⟩
    cases e
    obtain rfl := lock_lookup (account?_of_systemAccount? hn hc) (by simp) hc'
    rw [lookup_locked (by simp)] at hs
    exact ⟨c', s, hc, hs, hpost, hall, hck, hev _ (List.mem_singleton_self _), rfl⟩
  · rintro ⟨c, s, hc, hs, hpost, hall, hck, hev, rfl⟩
    refine ⟨c, db, ⟨hc, rfl⟩, _, db, ⟨?_, rfl, rfl⟩, c, db, ⟨?_, rfl⟩, s, db, ⟨?_, rfl⟩,
      _, _, ⟨hpost, rfl, rfl⟩, _, _, ⟨_, ⟨hall, rfl⟩, rfl⟩, hck, by simpa using hev, rfl⟩
    · intro id hid
      simp only [List.mem_cons, List.not_mem_nil, or_false] at hid
      rcases hid with rfl | rfl
      · exact ⟨c, (systemAccount?_spec hc).1, rfl⟩
      · exact ⟨s, Table.lookup_mem hs, Table.lookup_key hs⟩
    · exact lookup_lock (account?_of_systemAccount? hn hc) (by simp)
    · exact lookup_lock hs (by simp)

end

end LoyaltyTransfer
