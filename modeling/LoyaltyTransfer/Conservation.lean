/-
# `LoyaltyTransfer.Conservation` — points are neither lost nor made

The invariant of the database, over every change a committed transaction can
make.  It compares the database with the seeded one it started from:

    every balance = its opening balance + what each transfer did to it
    every transfer has the journals of its status and no others

`Transfer.effect a t` is what transfer `t` did to account `a` so far.  It is
read off the status of `t` alone, so a journal posted without the matching
status change, or a status change without its journal, breaks the equation.

**Proved here.**

    `Sound` holds of a seeded database            (`Seeded.sound`)
    every `Change` keeps it                       (`Sound.change`)
    under it the three journals keep the rules    (`Sound.settle_lawful`, …)
-/
import LoyaltyTransfer.Changes

namespace LoyaltyTransfer

open Transaction

/-! ## The seeded database -/

/-- The CHECK `owner_consistent` on `accounts`. -/
def Account.ownerConsistent (a : Account) : Prop :=
  (a.ownerType = .user ∧ a.userId.isSome ∧ a.accountType = .userBalance ∧
      a.externalMemberId.isSome) ∨
    (a.ownerType = .system ∧ a.userId = none ∧ a.accountType ≠ .userBalance ∧
      a.externalMemberId = none)

instance (a : Account) : Decidable a.ownerConsistent := inferInstanceAs (Decidable (_ ∨ _))

/-- The database after `scripts/seed.py`, under the constraints of the schema:
programs and accounts, opening balances, nothing in clearing, no transfer yet. -/
structure Seeded (db : Database) : Prop where
  programIds : (db.programs.map Program.id).Nodup
  programCodes : (db.programs.map Program.code).Nodup
  accountIds : (db.accounts.map Account.id).Nodup
  owners : ∀ a ∈ db.accounts, a.ownerConsistent
  userProgram : ∀ a ∈ db.accounts, ∀ b ∈ db.accounts, a.ownerType = .user → b.ownerType = .user →
    a.userId = b.userId → a.programId = b.programId → a.id = b.id
  systemProgramType : ∀ a ∈ db.accounts, ∀ b ∈ db.accounts, a.ownerType = .system →
    b.ownerType = .system → a.programId = b.programId → a.accountType = b.accountType → a.id = b.id
  systemAccounts : ∀ p ∈ db.programs, (db.systemAccount? p.id .transferClearing).isSome ∧
    (db.systemAccount? p.id .partnerSettlement).isSome
  userBalances : ∀ a ∈ db.accounts, a.ownerType = .user → 0 ≤ a.balance
  clearing : ∀ a ∈ db.accounts, a.accountType = .transferClearing → a.balance = 0
  noTransfers : db.transfers = []
  noEvents : db.transferEvents = []
  seedJournals : ∀ j ∈ db.ledgerJournals, j.transferId = none

/-! ## What a transfer does to an account -/

/-- The statuses in which the source points wait in clearing. -/
def heldStatuses : List TransferStatus :=
  [.sourceDebited, .partnerSubmitted, .pendingVerification, .manualReview]

/-- What `t` did to the balance of `a` so far. -/
def Transfer.effect (a : Account) (t : Transfer) : Int :=
  match a.accountType with
  | .userBalance =>
      (if a.userId = some t.userId ∧ a.programId = t.sourceProgramId ∧ t.status ≠ .reversed
        then -t.sourcePoints else 0) +
      (if a.userId = some t.userId ∧ a.programId = t.destinationProgramId ∧ t.status = .completed
        then t.destinationPoints else 0)
  | .transferClearing =>
      if a.programId = t.sourceProgramId ∧ t.status ∈ heldStatuses then t.sourcePoints else 0
  | .partnerSettlement =>
      (if a.programId = t.sourceProgramId ∧ t.status = .completed then t.sourcePoints else 0) +
      (if a.programId = t.destinationProgramId ∧ t.status = .completed
        then -t.destinationPoints else 0)

/-- A held transfer has left the user and waits in clearing. -/
theorem effect_held (a : Account) {t : Transfer} (h : t.status ∈ heldStatuses) :
    t.effect a = match a.accountType with
      | .userBalance =>
          if a.userId = some t.userId ∧ a.programId = t.sourceProgramId then -t.sourcePoints else 0
      | .transferClearing => if a.programId = t.sourceProgramId then t.sourcePoints else 0
      | .partnerSettlement => 0 := by
  have hr : t.status ≠ .reversed := by intro heq; simp [heq, heldStatuses] at h
  have hc : t.status ≠ .completed := by intro heq; simp [heq, heldStatuses] at h
  simp only [Transfer.effect]
  cases a.accountType <;> simp [h, hr, hc]

/-- A reversed transfer leaves no trace. -/
theorem effect_reversed (a : Account) {t : Transfer} (h : t.status = .reversed) :
    t.effect a = 0 := by
  simp only [Transfer.effect]
  cases a.accountType <;> simp [h, heldStatuses]

/-- A sum of what only some items contribute. -/
theorem sum_map_ite {α : Type} (xs : List α) (p : α → Prop) [DecidablePred p] (f : α → Int) :
    (xs.map fun x => if p x then f x else 0).sum =
      ((xs.filter fun x => decide (p x)).map f).sum := by
  induction xs with
  | nil => rfl
  | cons x xs ih => by_cases h : p x <;> simp [h, ih]

/-- What all transfers did to `a`. -/
def effects (transfers : List Transfer) (a : Account) : Int :=
  (transfers.map (Transfer.effect a)).sum

/-- The account with its balance moved by `n`. -/
def Account.plus (a : Account) (n : Int) : Account := { a with balance := a.balance + n }

@[simp] theorem effect_plus (a : Account) (n : Int) (t : Transfer) :
    t.effect (a.plus n) = t.effect a := rfl

/-- How many journals of a type a transfer has. -/
def Database.journalCount (db : Database) (id : String) (ty : JournalType) : Nat :=
  db.ledgerJournals.countP fun j => decide (j.transferId = some id ∧ j.journalType = ty)

/-- How many it has in a given status. -/
def expectedJournals (s : TransferStatus) : JournalType → Nat
  | .seed => 0
  | .transferDebit => 1
  | .transferSettle => if s = .completed then 1 else 0
  | .transferReversal => if s = .reversed then 1 else 0

/-! ## The invariant -/

/-- `a` is the user's account in the program. -/
structure Account.IsUser (a : Account) (userId : String) (programId : Nat) : Prop where
  owner : a.ownerType = .user
  user : a.userId = some userId
  program : a.programId = programId

/-- What holds of every stored transfer, whatever its status. -/
structure RowSound (db₀ : Database) (t : Transfer) : Prop where
  status : t.status ≠ .pending
  sourcePoints : 0 < t.sourcePoints
  destinationPoints : 0 < t.destinationPoints
  programs : t.sourceProgramId ≠ t.destinationProgramId
  reference : t.partnerReference = some t.id
  source : ∃ a ∈ db₀.accounts, a.id = t.sourceAccountId ∧ a.IsUser t.userId t.sourceProgramId
  destination :
    ∃ a ∈ db₀.accounts, a.id = t.destinationAccountId ∧ a.IsUser t.userId t.destinationProgramId
  sourceProgram : ∃ p ∈ db₀.programs, p.id = t.sourceProgramId
  destinationProgram : ∃ p ∈ db₀.programs, p.id = t.destinationProgramId

/-- The database, compared with the seeded one it came from. -/
structure Sound (db₀ db : Database) : Prop where
  users : db.users = db₀.users
  programs : db.programs = db₀.programs
  accounts : db.accounts = db₀.accounts.map fun a => a.plus (effects db.transfers a)
  userBalances : ∀ a ∈ db.accounts, a.ownerType = .user → 0 ≤ a.balance
  transferIds : (db.transfers.map Transfer.id).Nodup
  transferKeys : db.transfers.Pairwise fun t t' =>
    ¬ (t.userId = t'.userId ∧ t.idempotencyKey = t'.idempotencyKey)
  rows : ∀ t ∈ db.transfers, RowSound db₀ t
  journals : ∀ t ∈ db.transfers, ∀ ty, db.journalCount t.id ty = expectedJournals t.status ty
  journalTransfers : ∀ j ∈ db.ledgerJournals, ∀ id, j.transferId = some id →
    ∃ t ∈ db.transfers, t.id = id

theorem Seeded.sound {db : Database} (h : Seeded db) : Sound db db where
  users := rfl
  programs := rfl
  accounts := by simp [h.noTransfers, effects, Account.plus]
  userBalances := h.userBalances
  transferIds := by simp [h.noTransfers]
  transferKeys := by simp [h.noTransfers]
  rows := by simp [h.noTransfers]
  journals := by simp [h.noTransfers]
  journalTransfers := fun j hj id hid => by simp [h.seedJournals j hj] at hid

section

variable {db₀ db db' : Database} {t t' : Transfer}

/-! ## Accounts under the invariant -/

theorem Sound.accountIds_eq (h : Sound db₀ db) :
    db.accounts.map Account.id = db₀.accounts.map Account.id := by
  rw [h.accounts, List.map_map]
  rfl

theorem Sound.accountIds (h : Sound db₀ db) (hs : Seeded db₀) :
    (db.accounts.map Account.id).Nodup := by
  rw [h.accountIds_eq]
  exact hs.accountIds

/-- An account of the database is a seeded one with another balance. -/
theorem Sound.seeded_of_mem (h : Sound db₀ db) {a : Account} (ha : a ∈ db.accounts) :
    ∃ a₀ ∈ db₀.accounts, a = a₀.plus (effects db.transfers a₀) := by
  rw [h.accounts] at ha
  obtain ⟨a₀, ha₀, rfl⟩ := List.mem_map.mp ha
  exact ⟨a₀, ha₀, rfl⟩

/-- The system accounts are the seeded ones with another balance. -/
theorem Sound.systemAccount?_eq (h : Sound db₀ db) (programId : Nat) (ty : AccountType) :
    db.systemAccount? programId ty =
      (db₀.systemAccount? programId ty).map fun a => a.plus (effects db.transfers a) := by
  rw [Database.systemAccount?, h.accounts, List.find?_map]
  rfl

/-- `a₀` is the user's account exactly when it has the id of the user's account. -/
theorem Seeded.user_iff (hs : Seeded db₀) {a b : Account} {userId : String} {programId : Nat}
    (ha : a ∈ db₀.accounts) (hb : b ∈ db₀.accounts) (hu : b.IsUser userId programId) :
    b.id = a.id ↔
      a.accountType = .userBalance ∧ a.userId = some userId ∧ a.programId = programId := by
  constructor
  · intro hid
    obtain rfl := Table.eq_of_key_eq hs.accountIds hb ha hid
    refine ⟨?_, hu.user, hu.program⟩
    rcases hs.owners b hb with ⟨-, -, ht, -⟩ | ⟨ho, -⟩
    · exact ht
    · rw [hu.owner] at ho
      cases ho
  · rintro ⟨ht, hua, hpa⟩
    have ho : a.ownerType = .user := by
      rcases hs.owners a ha with ⟨ho, -⟩ | ⟨-, -, hne, -⟩
      · exact ho
      · exact absurd ht hne
    exact hs.userProgram b hb a ha hu.owner ho (hu.user.trans hua.symm) (hu.program.trans hpa.symm)

/-- A seeded account is the program's system account exactly when it has its id. -/
theorem Seeded.system_iff (hs : Seeded db₀) {a b : Account} {programId : Nat} {ty : AccountType}
    (hty : ty ≠ .userBalance) (ha : a ∈ db₀.accounts) (hb : b ∈ db₀.accounts)
    (hsys : b.ownerType = .system ∧ b.programId = programId ∧ b.accountType = ty) :
    b.id = a.id ↔ a.accountType = ty ∧ a.programId = programId := by
  constructor
  · intro hid
    obtain rfl := Table.eq_of_key_eq hs.accountIds hb ha hid
    exact ⟨hsys.2.2, hsys.2.1⟩
  · rintro ⟨ht, hp⟩
    have ho : a.ownerType = .system := by
      rcases hs.owners a ha with ⟨-, -, hu, -⟩ | ⟨ho, -⟩
      · exact absurd (ht.symm.trans hu) hty
      · exact ho
    exact hs.systemProgramType b hb a ha hsys.1 ho (hsys.2.1.trans hp.symm)
      (hsys.2.2.trans ht.symm)

theorem Sound.system_iff (h : Sound db₀ db) (hs : Seeded db₀) {a b : Account} {programId : Nat}
    {ty : AccountType} (hty : ty ≠ .userBalance) (ha : a ∈ db₀.accounts)
    (hb : db.systemAccount? programId ty = some b) :
    b.id = a.id ↔ a.accountType = ty ∧ a.programId = programId := by
  obtain ⟨hmem, hsys⟩ := systemAccount?_spec hb
  obtain ⟨b₀, hb₀, rfl⟩ := h.seeded_of_mem hmem
  exact hs.system_iff (b := b₀) hty ha hb₀ hsys

theorem Sound.user_iff (h : Sound db₀ db) (hs : Seeded db₀) {a b : Account} {userId : String}
    {programId : Nat} (ha : a ∈ db₀.accounts) (hb : b ∈ db.accounts)
    (hu : b.IsUser userId programId) :
    b.id = a.id ↔
      a.accountType = .userBalance ∧ a.userId = some userId ∧ a.programId = programId := by
  obtain ⟨b₀, hb₀, rfl⟩ := h.seeded_of_mem hb
  exact hs.user_iff (b := b₀) ha hb₀ ⟨hu.owner, hu.user, hu.program⟩

theorem isUser_of_userAccount? {userId : String} {programId : Nat} {a : Account}
    (h : db.userAccount? userId programId = some a) : a.IsUser userId programId :=
  ⟨(userAccount?_spec h).2.1, (userAccount?_spec h).2.2.1, (userAccount?_spec h).2.2.2⟩

/-- The account a stored transfer names is its user's. -/
theorem Sound.account_isUser (h : Sound db₀ db) (hs : Seeded db₀) {id programId : Nat}
    {userId : String} {a : Account}
    (hrow : ∃ b ∈ db₀.accounts, b.id = id ∧ b.IsUser userId programId)
    (ha : db.account? id = some a) : a ∈ db.accounts ∧ a.IsUser userId programId := by
  have hmem := Table.lookup_mem ha
  obtain ⟨a₀, ha₀, rfl⟩ := h.seeded_of_mem hmem
  obtain ⟨b, hb, hid, hu⟩ := hrow
  obtain rfl : b = a₀ :=
    Table.eq_of_key_eq hs.accountIds hb ha₀ (hid.trans (Table.lookup_key ha).symm)
  exact ⟨hmem, hu.owner, hu.user, hu.program⟩

/-! ## The three journals match the status changes -/

theorem netChange_debit (source clearing : Account) (points : Int) (id : Nat) :
    netChange (debitPostings source clearing points) id =
      (if source.id = id then -points else 0) + (if clearing.id = id then points else 0) := by
  simp [netChange, debitPostings, Tally.total_cons, Posting.debit, Posting.credit,
    Posting.signedAmount]

theorem netChange_reverse (clearing source : Account) (points : Int) (id : Nat) :
    netChange (reversePostings clearing source points) id =
      (if clearing.id = id then -points else 0) + (if source.id = id then points else 0) := by
  simp [netChange, reversePostings, Tally.total_cons, Posting.debit, Posting.credit,
    Posting.signedAmount]

theorem netChange_settle (accts : SettleAccounts) (t : Transfer) (id : Nat) :
    netChange (settlePostings accts t) id =
      (if accts.sourceClearing.id = id then -t.sourcePoints else 0) +
      ((if accts.sourceSettlement.id = id then t.sourcePoints else 0) +
      ((if accts.destinationSettlement.id = id then -t.destinationPoints else 0) +
      (if accts.destination.id = id then t.destinationPoints else 0))) := by
  simp [netChange, settlePostings, Tally.total_cons, Posting.debit, Posting.credit,
    Posting.signedAmount]

/-- The debit journal does what a transfer in SOURCE_DEBITED has done. -/
theorem Sound.debit_effect (h : Sound db₀ db) (hs : Seeded db₀)
    {source destination clearing : Account} (ho : Opening db t source destination clearing)
    {a : Account} (ha : a ∈ db₀.accounts) :
    netChange (debitPostings source clearing t.sourcePoints) a.id = t.effect a := by
  have hsrc := h.user_iff hs ha (userAccount?_spec ho.sourceAccount).1
    (isUser_of_userAccount? ho.sourceAccount)
  have hclr := h.system_iff hs (by decide) ha ho.clearingAccount
  simp only [netChange_debit, hsrc, hclr, Transfer.effect, ho.status, heldStatuses]
  cases a.accountType <;> simp

/-- The reversal journal undoes the debit: it moves a held transfer's effect to
that of a reversed one. -/
theorem Sound.reverse_effect (h : Sound db₀ db) (hs : Seeded db₀) (hrow : RowSound db₀ t)
    {clearing source : Account} {code : TransferFailureCode} {message : String} {wall : Time}
    (hheld : t.status ∈ heldStatuses)
    (hc : db.systemAccount? t.sourceProgramId .transferClearing = some clearing)
    (hsrc : db.account? t.sourceAccountId = some source) {a : Account}
    (ha : a ∈ db₀.accounts) :
    netChange (reversePostings clearing source t.sourcePoints) a.id =
      (t.reversedAs code message wall).effect a - t.effect a := by
  obtain ⟨hmem, hu⟩ := h.account_isUser hs hrow.source hsrc
  have hsrc := h.user_iff hs ha hmem hu
  have hclr := h.system_iff hs (by decide) ha hc
  rw [effect_reversed a rfl, effect_held a hheld]
  simp only [netChange_reverse, hsrc, hclr]
  cases a.accountType <;> simp <;> split_ifs <;> simp

/-- The settlement journal moves a held transfer's effect to that of a
completed one. -/
theorem Sound.settle_effect (h : Sound db₀ db) (hs : Seeded db₀) (hrow : RowSound db₀ t)
    {accts : SettleAccounts} {confirmationId : String} {wall : Time}
    (hheld : t.status ∈ heldStatuses) (hof : accts.Of db t) {a : Account}
    (ha : a ∈ db₀.accounts) :
    netChange (settlePostings accts t) a.id =
      (t.settledAs confirmationId wall).effect a - t.effect a := by
  obtain ⟨hmem, hu⟩ := h.account_isUser hs hrow.destination hof.destination
  have hdst := h.user_iff hs ha hmem hu
  have hclr := h.system_iff hs (by decide) ha hof.sourceClearing
  have hset := h.system_iff hs (by decide) ha hof.sourceSettlement
  have hdset := h.system_iff hs (by decide) ha hof.destinationSettlement
  rw [effect_held a hheld]
  simp only [netChange_settle, hdst, hclr, hset, hdset, Transfer.effect, Transfer.settledAs]
  cases a.accountType with
  | userBalance => simp
  | transferClearing => simp [heldStatuses]; split_ifs <;> simp
  | partnerSettlement => simp

theorem Seeded.userBalance_of_user (hs : Seeded db₀) {a : Account} (ha : a ∈ db₀.accounts)
    (hu : a.ownerType = .user) : a.accountType = .userBalance := by
  rcases hs.owners a ha with ⟨-, -, ht, -⟩ | ⟨ho, -⟩
  · exact ht
  · rw [hu] at ho
    cases ho

/-- A reversal takes from no user. -/
theorem Sound.reverse_user_nonneg (h : Sound db₀ db) (hs : Seeded db₀) (hrow : RowSound db₀ t)
    {clearing source : Account}
    (hc : db.systemAccount? t.sourceProgramId .transferClearing = some clearing) {a : Account}
    (ha : a ∈ db₀.accounts) (hu : a.ownerType = .user) :
    0 ≤ netChange (reversePostings clearing source t.sourcePoints) a.id := by
  have hty := hs.userBalance_of_user ha hu
  have hclr : clearing.id ≠ a.id := by simp [h.system_iff hs (by decide) ha hc, hty]
  have := hrow.sourcePoints
  simp only [netChange_reverse, if_neg hclr, zero_add]
  split_ifs <;> omega

/-- A settlement takes from no user. -/
theorem Sound.settle_user_nonneg (h : Sound db₀ db) (hs : Seeded db₀) (hrow : RowSound db₀ t)
    {accts : SettleAccounts} (hof : accts.Of db t) {a : Account} (ha : a ∈ db₀.accounts)
    (hu : a.ownerType = .user) : 0 ≤ netChange (settlePostings accts t) a.id := by
  have hty := hs.userBalance_of_user ha hu
  have hclr := h.system_iff hs (by decide) ha hof.sourceClearing
  have hset := h.system_iff hs (by decide) ha hof.sourceSettlement
  have hdset := h.system_iff hs (by decide) ha hof.destinationSettlement
  have := hrow.destinationPoints
  simp only [netChange_settle, hclr, hset, hdset, hty, reduceCtorEq, false_and, if_false, zero_add]
  split_ifs <;> omega

/-! ## Every change keeps the invariant -/

theorem RowSound.sameTerms (h : RowSound db₀ t) (hterms : SameTerms t t')
    (hstatus : t'.status ≠ .pending) : RowSound db₀ t' where
  status := hstatus
  sourcePoints := hterms.sourcePoints ▸ h.sourcePoints
  destinationPoints := hterms.destinationPoints ▸ h.destinationPoints
  programs := by rw [hterms.sourceProgramId, hterms.destinationProgramId]; exact h.programs
  reference := by rw [hterms.partnerReference, hterms.id]; exact h.reference
  source := by rw [hterms.sourceAccountId, hterms.userId, hterms.sourceProgramId]; exact h.source
  destination := by
    rw [hterms.destinationAccountId, hterms.userId, hterms.destinationProgramId]
    exact h.destination
  sourceProgram := by rw [hterms.sourceProgramId]; exact h.sourceProgram
  destinationProgram := by rw [hterms.destinationProgramId]; exact h.destinationProgram

theorem plus_plus (a : Account) (m n : Int) : (a.plus m).plus n = a.plus (m + n) := by
  simp [Account.plus, add_assoc]

theorem shiftBalances_accounts (h : Sound db₀ db) {f : Nat → Int} {transfers : List Transfer}
    (hf : ∀ a ∈ db₀.accounts, effects db.transfers a + f a.id = effects transfers a) :
    shiftBalances f db.accounts = db₀.accounts.map fun a => a.plus (effects transfers a) := by
  rw [h.accounts, shiftBalances, List.map_map]
  refine List.map_congr_left fun a ha => ?_
  rw [← hf a ha]
  exact plus_plus a _ _

/-- User balances stay non-negative when every user's change is. -/
theorem Sound.userBalances_shift (h : Sound db₀ db) {f : Nat → Int}
    (hpos : ∀ a ∈ db₀.accounts, a.ownerType = .user → 0 ≤ f a.id) :
    ∀ a ∈ shiftBalances f db.accounts, a.ownerType = .user → 0 ≤ a.balance := by
  intro a ha hu
  obtain ⟨b, hb, rfl⟩ := List.mem_map.mp ha
  obtain ⟨b₀, hb₀, heq⟩ := h.seeded_of_mem hb
  have hchange : 0 ≤ f b.id := by
    rw [heq]
    exact hpos b₀ hb₀ (by rw [heq] at hu; exact hu)
  exact add_nonneg (h.userBalances b hb hu) hchange

theorem pairwise_keys_map {g : Transfer → Transfer} (hg : ∀ t, SameTerms t (g t))
    {transfers : List Transfer}
    (h : transfers.Pairwise fun t t' =>
      ¬ (t.userId = t'.userId ∧ t.idempotencyKey = t'.idempotencyKey)) :
    (transfers.map g).Pairwise fun t t' =>
      ¬ (t.userId = t'.userId ∧ t.idempotencyKey = t'.idempotencyKey) := by
  refine List.pairwise_map.mpr (h.imp fun {x y} hxy => ?_)
  rw [(hg x).userId, (hg y).userId, (hg x).idempotencyKey, (hg y).idempotencyKey]
  exact hxy

theorem journalCount_append (js : List LedgerJournal) (id : String) (ty : JournalType)
    (hdb : db'.ledgerJournals = db.ledgerJournals ++ js) :
    db'.journalCount id ty = db.journalCount id ty +
      js.countP fun j => decide (j.transferId = some id ∧ j.journalType = ty) := by
  rw [Database.journalCount, hdb, List.countP_append]
  rfl

/-- One row changes from `t` to `t'`, the balances move by `f` and the journals
`js` of `t` are written: the invariant asks that `f` be the difference in
effect, and that `js` be the difference in journals. -/
theorem Sound.update (h : Sound db₀ db) (ht : db.transfer? t.id = some t)
    (hterms : SameTerms t t') (hstatus : t'.status ≠ .pending) (f : Nat → Int)
    (js : List LedgerJournal)
    (hf : ∀ a ∈ db₀.accounts, f a.id = t'.effect a - t.effect a)
    (hpos : ∀ a ∈ db₀.accounts, a.ownerType = .user → 0 ≤ f a.id)
    (hjs : ∀ j ∈ js, j.transferId = some t.id)
    (hcount : ∀ ty, db.journalCount t.id ty +
      js.countP (fun j => decide (j.transferId = some t.id ∧ j.journalType = ty)) =
        expectedJournals t'.status ty)
    (husers : db'.users = db.users) (hprograms : db'.programs = db.programs)
    (haccounts : db'.accounts = shiftBalances f db.accounts)
    (htransfers : db'.transfers = Table.replace Transfer.id t' db.transfers)
    (hjournals : db'.ledgerJournals = db.ledgerJournals ++ js) : Sound db₀ db' := by
  have hmem : t ∈ db.transfers := Table.lookup_mem ht
  have hrow := h.rows t hmem
  have hsum : ∀ a ∈ db₀.accounts, effects db.transfers a + f a.id =
      effects (Table.replace Transfer.id t' db.transfers) a := by
    intro a ha
    rw [effects, effects, Table.sum_replace _ h.transferIds hmem hterms.id, hf a ha]
    ring
  refine ⟨husers.trans h.users, hprograms.trans h.programs, ?_, ?_, ?_, ?_, ?_, ?_, ?_⟩
  · rw [haccounts, htransfers]
    exact shiftBalances_accounts h hsum
  · rw [haccounts]
    exact h.userBalances_shift hpos
  · rw [htransfers, Table.map_key_replace]
    exact h.transferIds
  · -- a replacement maps each row to one with the same terms, except `t'` for `t`
    rw [htransfers, Table.replace]
    refine List.pairwise_map.mpr (h.transferKeys.imp_of_mem fun {x y} hx hy hxy => ?_)
    have key : ∀ x ∈ db.transfers, (if x.id = t'.id then t' else x).userId = x.userId ∧
        (if x.id = t'.id then t' else x).idempotencyKey = x.idempotencyKey := by
      intro x hx
      by_cases hid : x.id = t'.id
      · obtain rfl := Table.eq_of_key_eq h.transferIds hx hmem (hid.trans hterms.id)
        simp only [if_pos hid]
        exact ⟨hterms.userId, hterms.idempotencyKey⟩
      · simp only [if_neg hid, and_self]
    rw [(key x hx).1, (key x hx).2, (key y hy).1, (key y hy).2]
    exact hxy
  · intro x hx
    rw [htransfers] at hx
    rcases Table.mem_replace.mp hx with ⟨rfl, -⟩ | ⟨hx, -⟩
    · exact hrow.sameTerms hterms hstatus
    · exact h.rows x hx
  · intro x hx ty
    rw [htransfers] at hx
    rw [journalCount_append js x.id ty hjournals]
    rcases Table.mem_replace.mp hx with ⟨rfl, -⟩ | ⟨hx, hne⟩
    · rw [hterms.id]
      exact hcount ty
    · have hnone : js.countP (fun j => decide (j.transferId = some x.id ∧ j.journalType = ty)) =
          0 := by
        rw [List.countP_eq_zero]
        intro j hj
        rw [hterms.id] at hne
        simp [hjs j hj, Ne.symm hne]
      rw [hnone, add_zero]
      exact h.journals x hx ty
  · intro j hj id hid
    rw [hjournals] at hj
    have hold : ∃ x ∈ db.transfers, x.id = id := by
      rcases List.mem_append.mp hj with hj | hj
      · exact h.journalTransfers j hj id hid
      · rw [hjs j hj] at hid
        exact ⟨t, hmem, Option.some.inj hid⟩
    obtain ⟨x, hx, hxid⟩ := hold
    rw [htransfers]
    by_cases hx' : x.id = t'.id
    · exact ⟨t', Table.mem_replace.mpr (.inl ⟨rfl, x, hx, hx'⟩), hx'.symm.trans hxid⟩
    · exact ⟨x, Table.mem_replace.mpr (.inr ⟨hx, hx'⟩), hxid⟩

theorem checked_programs (h : t.checked = .ok ()) : t.sourceProgramId ≠ t.destinationProgramId := by
  have hcheck := (checked_ok.mp h).2
  simp only [Transfer.violatedCheck, ite_some_eq_none] at hcheck
  exact hcheck.2.2.2.2.2.1

theorem Opening.rowSound (h : Sound db₀ db) {source destination clearing : Account}
    (ho : Opening db t source destination clearing) : RowSound db₀ t := by
  obtain ⟨hs, hsu⟩ := userAccount?_spec ho.sourceAccount
  obtain ⟨hd, hdu⟩ := userAccount?_spec ho.destinationAccount
  obtain ⟨s₀, hs₀, rfl⟩ := h.seeded_of_mem hs
  obtain ⟨d₀, hd₀, rfl⟩ := h.seeded_of_mem hd
  obtain ⟨now, request, terms, hp, ht⟩ := ho.priced
  obtain ⟨⟨p, hpm, -, hpe⟩, q, hqm, -, hqe⟩ := getRoute_ok hp.route
  rw [h.programs] at hpm hqm
  exact {
    status := by rw [ho.status]; decide
    sourcePoints := (checked_positive ho.insertable.checked).1
    destinationPoints := (checked_positive ho.insertable.checked).2
    programs := checked_programs (t := { t with status := .pending }) ho.insertable.checked
    reference := ho.reference
    source := ⟨s₀, hs₀, ho.sourceId.symm, hsu.1, hsu.2.1, hsu.2.2⟩
    destination := ⟨d₀, hd₀, ho.destinationId.symm, hdu.1, hdu.2.1, hdu.2.2⟩
    sourceProgram := ⟨p, hpm, (congrArg ProgramRef.id hpe).symm.trans
      (congrArg Transfer.sourceProgramId ht).symm⟩
    destinationProgram := ⟨q, hqm, (congrArg ProgramRef.id hqe).symm.trans
      (congrArg Transfer.destinationProgramId ht).symm⟩ }

/-- A transfer that is not there has no journal. -/
theorem Sound.journalCount_fresh (h : Sound db₀ db) {id : String}
    (hid : ∀ x ∈ db.transfers, x.id ≠ id) (ty : JournalType) : db.journalCount id ty = 0 := by
  rw [Database.journalCount, List.countP_eq_zero]
  intro j hj
  simp only [decide_eq_true_eq, not_and]
  intro hjt
  obtain ⟨x, hx, hxid⟩ := h.journalTransfers j hj id hjt
  exact absurd hxid (hid x hx)

theorem Sound.opened (h : Sound db₀ db) (hs : Seeded db₀)
    {source destination clearing : Account} (ho : Opening db t source destination clearing)
    (events : List TransferEvent) (moment : Time) :
    Sound db₀ (opened db t source clearing events moment) where
  users := h.users
  programs := h.programs
  accounts := by
    refine shiftBalances_accounts h fun a ha => ?_
    rw [h.debit_effect hs ho ha]
    simp [effects, LoyaltyTransfer.opened]
  userBalances := by
    -- only the source account goes down, and it held enough
    intro a ha hu
    obtain ⟨b, hb, rfl⟩ := List.mem_map.mp ha
    have hnonneg := h.userBalances b hb hu
    have hclearing : clearing.id ≠ b.id := by
      intro hid
      obtain ⟨hmem, hsys, -⟩ := systemAccount?_spec ho.clearingAccount
      obtain rfl := Table.eq_of_key_eq (h.accountIds hs) hmem hb hid
      rw [hsys] at hu
      cases hu
    simp only [netChange_debit, if_neg hclearing, add_zero]
    by_cases hsrc : source.id = b.id
    · obtain rfl := Table.eq_of_key_eq (h.accountIds hs) (userAccount?_spec ho.sourceAccount).1 hb
        hsrc
      have := ho.balance
      simp only [if_true]
      omega
    · simpa only [if_neg hsrc, add_zero] using hnonneg
  transferIds := by
    simp only [LoyaltyTransfer.opened, List.map_append, List.map_cons, List.map_nil]
    refine List.nodup_append.mpr ⟨h.transferIds, by simp, ?_⟩
    intro x hx y hy hxy
    obtain ⟨x', hx', rfl⟩ := List.mem_map.mp hx
    rw [List.mem_singleton.mp hy] at hxy
    exact ho.insertable.id x' hx' hxy
  transferKeys := by
    refine List.pairwise_append.mpr ⟨h.transferKeys, by simp, ?_⟩
    intro x hx y hy
    rw [List.mem_singleton.mp hy]
    exact ho.insertable.key x hx
  rows := by
    intro x hx
    rcases List.mem_append.mp hx with hx | hx
    · exact h.rows x hx
    · rw [List.mem_singleton.mp hx]
      exact ho.rowSound h
  journals := by
    intro x hx ty
    rw [journalCount_append _ x.id ty rfl]
    rcases List.mem_append.mp hx with hx | hx
    · have hne : t.id ≠ x.id := fun heq => ho.insertable.id x hx heq.symm
      rw [h.journals x hx ty]
      simp [newJournal, hne]
    · rw [List.mem_singleton.mp hx, h.journalCount_fresh ho.insertable.id ty]
      cases ty <;> simp [newJournal, expectedJournals, ho.status]
  journalTransfers := by
    intro j hj id hid
    rcases List.mem_append.mp hj with hj | hj
    · obtain ⟨x, hx, hxid⟩ := h.journalTransfers j hj id hid
      exact ⟨x, List.mem_append_left _ hx, hxid⟩
    · rw [List.mem_singleton.mp hj] at hid
      exact ⟨t, List.mem_append_right _ (List.mem_singleton_self t), Option.some.inj hid⟩

/-- A lease changes no term and no status. -/
theorem Sound.leased (h : Sound db₀ db) (claimed : List String) (expiry : Time) :
    Sound db₀ (leased claimed expiry db) := by
  set g : Transfer → Transfer := fun t =>
    if t.id ∈ claimed then { t with nextVerificationAt := some expiry } else t with hg
  have hterms : ∀ t, SameTerms t (g t) := by
    intro t
    by_cases hc : t.id ∈ claimed
    · simp only [hg, if_pos hc]
      exact sameTerms_written ..
    · simp only [hg, if_neg hc]
      exact SameTerms.refl t
  have hstatus : ∀ t, (g t).status = t.status := by
    intro t
    by_cases hc : t.id ∈ claimed <;> simp [hg, hc]
  have heffect : ∀ a t, (g t).effect a = t.effect a := by
    intro a t
    by_cases hc : t.id ∈ claimed
    · simp only [hg, if_pos hc]; rfl
    · simp only [hg, if_neg hc]
  have hids : (db.transfers.map g).map Transfer.id = db.transfers.map Transfer.id := by
    rw [List.map_map]
    exact List.map_congr_left fun t _ => (hterms t).id
  refine ⟨h.users, h.programs, ?_, h.userBalances, ?_,
    pairwise_keys_map hterms h.transferKeys, ?_, ?_, ?_⟩
  · rw [LoyaltyTransfer.leased, h.accounts]
    refine List.map_congr_left fun a _ => congrArg a.plus ?_
    rw [effects, effects, List.map_map]
    exact congrArg List.sum (List.map_congr_left fun t _ => (heffect a t).symm)
  · exact hids ▸ h.transferIds
  · intro x hx
    obtain ⟨t, ht, rfl⟩ := List.mem_map.mp hx
    exact (h.rows t ht).sameTerms (hterms t) (by rw [hstatus]; exact (h.rows t ht).status)
  · intro x hx ty
    obtain ⟨t, ht, rfl⟩ := List.mem_map.mp hx
    rw [(hterms t).id, hstatus]
    exact h.journals t ht ty
  · intro j hj id hid
    obtain ⟨t, ht, htid⟩ := h.journalTransfers j hj id hid
    exact ⟨g t, List.mem_map_of_mem ht, (hterms t).id.trans htid⟩

theorem Sound.frame (h : Sound db₀ db) (hf : SameLedger db db') : Sound db₀ db' where
  users := hf.users.trans h.users
  programs := hf.programs.trans h.programs
  accounts := by rw [hf.accounts, hf.transfers]; exact h.accounts
  userBalances := by rw [hf.accounts]; exact h.userBalances
  transferIds := by rw [hf.transfers]; exact h.transferIds
  transferKeys := by rw [hf.transfers]; exact h.transferKeys
  rows := by rw [hf.transfers]; exact h.rows
  journals := by
    simp only [hf.transfers, Database.journalCount, hf.ledgerJournals]
    exact h.journals
  journalTransfers := by rw [hf.transfers, hf.ledgerJournals]; exact h.journalTransfers

theorem held_of_verifiable {s : TransferStatus} (h : s ∈ verifiableStatuses) :
    s ∈ heldStatuses := by
  cases s <;> simp [verifiableStatuses, heldStatuses] at h ⊢

theorem settleable_of_verifiable {s : TransferStatus} (h : s ∈ verifiableStatuses) :
    .completed ∈ allowedTransitions s := by
  cases s <;> simp [verifiableStatuses, allowedTransitions] at h ⊢

theorem ReversedBecause.held {late : Transfer → Prop} {code : TransferFailureCode}
    (h : ReversedBecause late t code) : t.status ∈ heldStatuses := by
  cases h with
  | rejected hs => rw [hs]; decide
  | unavailable hs => rw [hs]; decide
  | notReceived hs _ => exact held_of_verifiable hs
  | interrupted hs => rw [hs]; decide

/-- A held transfer has been debited and neither settled nor reversed. -/
theorem expectedJournals_held {s : TransferStatus} (h : s ∈ heldStatuses) (ty : JournalType) :
    expectedJournals s ty = if ty = .transferDebit then 1 else 0 := by
  cases s <;> cases ty <;> simp [expectedJournals, heldStatuses] at h ⊢

theorem effect_eq_of_held (a : Account) (hterms : SameTerms t t') (h : t.status ∈ heldStatuses)
    (h' : t'.status ∈ heldStatuses) : t'.effect a = t.effect a := by
  rw [effect_held a h, effect_held a h', hterms.userId, hterms.sourceProgramId,
    hterms.sourcePoints]

/-- A row that stays held: no balance moves and no journal is written. -/
theorem Sound.savedHeld (h : Sound db₀ db) (ht : db.transfer? t.id = some t)
    (hterms : SameTerms t t') (hh : t.status ∈ heldStatuses) (hh' : t'.status ∈ heldStatuses)
    (events : List TransferEvent) (moment : Option Time) :
    Sound db₀ (saved db t' events moment) := by
  refine h.update ht hterms ?_ (fun _ => 0) [] ?_ (by simp) (by simp) ?_
    rfl rfl ?_ rfl ?_
  · intro heq
    simp [heq, heldStatuses] at hh'
  · intro a _
    rw [effect_eq_of_held a hterms hh hh', sub_self]
  · intro ty
    rw [h.journals t (Table.lookup_mem ht) ty, expectedJournals_held hh, expectedJournals_held hh']
    simp
  · rw [shiftBalances_zero]
    rfl
  · simp [saved]

theorem Sound.settled (h : Sound db₀ db) (hs : Seeded db₀) (ht : db.transfer? t.id = some t)
    (hh : t.status ∈ heldStatuses) {accts : SettleAccounts} (hof : accts.Of db t)
    (confirmationId : String) (wall : Time) (events : List TransferEvent) (moment : Option Time) :
    Sound db₀ (saved (posted db .transferSettle (settlePostings accts t) (some t.id))
      (t.settledAs confirmationId wall) events moment) := by
  have hrow := h.rows t (Table.lookup_mem ht)
  refine h.update ht (sameTerms_settledAs t confirmationId wall)
    (by simp [Transfer.settledAs]) _ [newJournal db .transferSettle (some t.id)]
    (fun a ha => h.settle_effect hs hrow hh hof ha)
    (fun a ha hu => h.settle_user_nonneg hs hrow hof ha hu) ?_ ?_ rfl rfl rfl rfl rfl
  · intro j hj
    rw [List.mem_singleton.mp hj]
    rfl
  · intro ty
    rw [h.journals t (Table.lookup_mem ht) ty, expectedJournals_held hh]
    cases ty <;> simp [newJournal, expectedJournals, Transfer.settledAs]

theorem Sound.reversed (h : Sound db₀ db) (hs : Seeded db₀) (ht : db.transfer? t.id = some t)
    (hh : t.status ∈ heldStatuses) {clearing source : Account}
    (hc : db.systemAccount? t.sourceProgramId .transferClearing = some clearing)
    (hsrc : db.account? t.sourceAccountId = some source) (code : TransferFailureCode)
    (message : String) (wall : Time) (events : List TransferEvent) (moment : Option Time) :
    Sound db₀ (saved (posted db .transferReversal
      (reversePostings clearing source t.sourcePoints) (some t.id))
      (t.reversedAs code message wall) events moment) := by
  have hrow := h.rows t (Table.lookup_mem ht)
  refine h.update ht (sameTerms_reversedAs t code message wall)
    (by simp [Transfer.reversedAs]) _ [newJournal db .transferReversal (some t.id)]
    (fun a ha => h.reverse_effect hs hrow hh hc hsrc ha)
    (fun a ha hu => h.reverse_user_nonneg hs hrow hc ha hu) ?_ ?_ rfl rfl rfl rfl rfl
  · intro j hj
    rw [List.mem_singleton.mp hj]
    rfl
  · intro ty
    rw [h.journals t (Table.lookup_mem ht) ty, expectedJournals_held hh]
    cases ty <;> simp [newJournal, expectedJournals, Transfer.reversedAs]

/-- Every change a committed transaction can make keeps the invariant. -/
theorem Sound.change {c : Cause} (h : Sound db₀ db) (hs : Seeded db₀) (hc : Change c db db') :
    Sound db₀ db' := by
  cases hc with
  | frame hf => exact h.frame hf
  | opened events _ ho => exact h.opened hs ho events _
  | submitted ht _ hst _ =>
      exact h.savedHeld ht (sameTerms_movedTo _ _ _) (by rw [hst]; decide)
        (by simp [Transfer.movedTo, heldStatuses]) _ _
  | parked events ht hst hterms hst' =>
      refine h.savedHeld ht hterms (held_of_verifiable hst) ?_ events _
      rcases hst' with h' | h' <;> rw [h'] <;> decide
  | settled events ht hst _ hof => exact h.settled hs ht (held_of_verifiable hst) hof _ _ events _
  | reversed events ht hbecause hclr hsrc =>
      exact h.reversed hs ht hbecause.held hclr hsrc _ _ _ events _
  | leased claimed expiry => exact h.leased claimed expiry

end

end LoyaltyTransfer
