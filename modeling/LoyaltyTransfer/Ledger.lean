/-
# `LoyaltyTransfer.Ledger` — the double-entry ledger

`app/services/ledger.py`.  For every account

    balance = sum of its CREDITs − sum of its DEBITs

and every balance change goes through `postJournal`, which writes a journal,
its entries and the new balances in the caller's transaction.

**Proved here.**

    postJournal commits  ⟺  `Postable`, and then the state is `posted`      (`postJournal_ok`)

`Postable` says everything the journal is checked for: it keeps the rules
(`Lawful`: valid postings, no earlier journal of this type for the transfer,
existing accounts of the named program, no user balance below zero), and the
`BIGINT` columns hold what it writes (`InRange`).  `posted` is the state with the
journal and its entries appended and each balance moved by its net postings.  No
later module unfolds `postJournal`.
-/
import LoyaltyTransfer.Schema
import LoyaltyTransfer.Lib.Tally

namespace LoyaltyTransfer

open Transaction

/-! ## Journals -/

/-- One line of a journal: move `amount` on `accountId` in `direction`. -/
structure Posting where
  accountId : Nat
  programId : Nat
  direction : EntryDirection
  amount : Int
  deriving DecidableEq

def Posting.debit (account : Account) (amount : Int) : Posting :=
  ⟨account.id, account.programId, .debit, amount⟩

def Posting.credit (account : Account) (amount : Int) : Posting :=
  ⟨account.id, account.programId, .credit, amount⟩

def Posting.signedAmount (p : Posting) : Int :=
  match p.direction with
  | .credit => p.amount
  | .debit => -p.amount

/-- The `ledger_entries` row of a posting. -/
def Posting.entry (journalId : Nat) (p : Posting) : LedgerEntry :=
  ⟨journalId, p.accountId, p.programId, p.direction, p.amount⟩

/-- At least two postings, every amount positive, and within each program
debits equal credits. -/
def validateJournal (postings : List Posting) : Except LedgerFault Unit :=
  if postings.length < 2 then .error .tooFewPostings
  else
    match postings.find? fun p => decide (p.amount ≤ 0) with
    | some p => .error (.amountNotPositive p.amount)
    | none =>
        let netByProgram := Tally.tally Posting.programId Posting.signedAmount postings
        let unbalanced := netByProgram.filter fun e => decide (e.2 ≠ 0)
        if unbalanced ≠ [] then .error (.unbalanced unbalanced) else .ok ()

/-- Account id to net change in balance. -/
def netBalanceChanges (postings : List Posting) : List (Nat × Int) :=
  Tally.tally Posting.accountId Posting.signedAmount postings

/-! ## Posting -/

/-- The database's own balance check failed: the CHECK on `accounts`, reported
as a business error. -/
def userBalanceNegative : DomainError where
  code := .insufficientBalance
  detail := "The account does not have enough points for this transfer."

/-- `UPDATE accounts SET balance = balance + delta, updated_at = now() WHERE id =
accountId`: the parameter and the sum are `BIGINT`s. -/
def updateBalance (accountId : Nat) (delta : Int) : DbTx Unit := do
  let db ← get
  let accounts := db.accounts.map fun a =>
    if a.id = accountId then { a with balance := a.balance + delta } else a
  Tx.failIf (fitsBigint delta = false) (.data .balance)
  Tx.failIf (∃ a ∈ accounts, a.id = accountId ∧ fitsBigint a.balance = false) (.data .balance)
  Tx.failIf (∃ a ∈ accounts, a.id = accountId ∧ a.ownerType = .user ∧ a.balance < 0)
    (.domain userBalanceNegative)
  set { db with
    accounts := accounts
    updatedAt := { db.updatedAt with
      accounts := Function.update db.updatedAt.accounts accountId db.clock } }

def updateBalances : List (Nat × Int) → DbTx Unit
  | [] => pure ()
  | (accountId, delta) :: rest =>
      if delta = 0 then updateBalances rest
      else do
        updateBalance accountId delta
        updateBalances rest

/-- `INSERT INTO ledger_journals`.  A second journal of one type for one
transfer is the unique violation the ledger turns into its own error; a NULL
transfer never collides. -/
def insertJournal (journalType : JournalType) (transferId : Option String) :
    DbTx LedgerJournal := do
  let db ← get
  Tx.failIf (decide (journalType = .seed) ≠ transferId.isNone)
    (.integrity .ckLedgerJournalsTransferLinkConsistent)
  Tx.failIf (transferId.isSome ∧
      ∃ j ∈ db.ledgerJournals, j.transferId = transferId ∧ j.journalType = journalType)
    (.journalAlreadyPosted transferId journalType)
  Tx.failIf (∃ id ∈ transferId, ¬ ∃ t ∈ db.transfers, t.id = id)
    (.integrity .fkLedgerJournalsTransferId)
  let journal : LedgerJournal :=
    ⟨Table.nextId LedgerJournal.id db.ledgerJournals, journalType, transferId⟩
  set { db with ledgerJournals := db.ledgerJournals ++ [journal] }
  pure journal

/-- `INSERT INTO ledger_entries`. -/
def insertEntries (journalId : Nat) (postings : List Posting) : DbTx Unit := do
  let db ← get
  Tx.failIf (∃ p ∈ postings, fitsBigint p.amount = false) (.data .amount)
  Tx.failIf (∃ p ∈ postings, ¬ 0 < p.amount) (.integrity .ckLedgerEntriesAmountPositive)
  Tx.failIf (∃ p ∈ postings, db.hasAccount p.accountId p.programId = false)
    (.integrity .fkLedgerEntriesAccountProgram)
  set { db with ledgerEntries := db.ledgerEntries ++ postings.map (Posting.entry journalId) }

/-- Write a balanced journal and apply it to the balances, in ascending account
order, in the caller's transaction. -/
def postJournal (journalType : JournalType) (postings : List Posting)
    (transferId : Option String) : DbTx LedgerJournal := do
  Tx.ofExcept ((validateJournal postings).mapError Fault.ledger)
  let journal ← insertJournal journalType transferId
  insertEntries journal.id postings
  updateBalances ((netBalanceChanges postings).insertionSort fun a b => a.1 ≤ b.1)
  pure journal

/-! ## Accounts -/

/-- Lock several accounts; the rows read under the lock. -/
def lockAccountsForUpdate (ids : List Nat) : DbTx (List Account) := do
  let db ← get
  let accounts := db.accounts.filter fun a => decide (a.id ∈ ids)
  let missing := ids.dedup.filter fun id => decide (∀ a ∈ accounts, a.id ≠ id)
  Tx.failIf (missing ≠ []) (.ledger (.accountsDoNotExist missing))
  pure accounts

/-- `accounts[id]` of the dictionary the lock returns. -/
def lockedAccount (accounts : List Account) (id : Nat) : DbTx Account :=
  Tx.ofOption (Table.lookup Account.id id accounts) (.lookup "account")

def Database.userAccount? (db : Database) (userId : String) (programId : Nat) : Option Account :=
  db.accounts.find? fun a =>
    decide (a.ownerType = .user ∧ a.userId = some userId ∧ a.programId = programId)

def getUserAccount (userId : String) (programId : Nat) : DbTx (Option Account) := do
  let db ← get
  pure (db.userAccount? userId programId)

def Database.systemAccount? (db : Database) (programId : Nat) (accountType : AccountType) :
    Option Account :=
  db.accounts.find? fun a =>
    decide (a.ownerType = .system ∧ a.programId = programId ∧ a.accountType = accountType)

def getSystemAccount (programId : Nat) (accountType : AccountType) : DbTx Account := do
  let db ← get
  Tx.ofOption (db.systemAccount? programId accountType)
    (.ledger (.noSystemAccount programId accountType))

/-! ## What posting does -/

/-- The net change a list of postings makes to an account. -/
def netChange (postings : List Posting) (accountId : Nat) : Int :=
  Tally.total Posting.accountId Posting.signedAmount postings accountId

/-- The accounts with every balance moved by `change`. -/
def shiftBalances (change : Nat → Int) (accounts : List Account) : List Account :=
  accounts.map fun a => { a with balance := a.balance + change a.id }

/-- The state with every balance moved by `change`. -/
def moveBalances (change : Nat → Int) (db : Database) : Database :=
  { db with
    accounts := shiftBalances change db.accounts
    updatedAt := db.updatedAt.moved change db.clock }

/-- The journal of these postings keeps the rules of the ledger. -/
structure Lawful (db : Database) (journalType : JournalType) (postings : List Posting)
    (transferId : Option String) : Prop where
  valid : validateJournal postings = .ok ()
  link : decide (journalType = .seed) = transferId.isNone
  fresh : transferId.isSome →
    ∀ j ∈ db.ledgerJournals, ¬ (j.transferId = transferId ∧ j.journalType = journalType)
  transfer : ∀ id ∈ transferId, ∃ t ∈ db.transfers, t.id = id
  accounts : ∀ p ∈ postings, db.hasAccount p.accountId p.programId = true
  covered : ∀ a ∈ db.accounts, a.ownerType = .user → netChange postings a.id ≠ 0 →
    0 ≤ a.balance + netChange postings a.id

/-- The `BIGINT` columns hold the amounts, the changes and the new balances. -/
structure InRange (db : Database) (postings : List Posting) : Prop where
  amounts : ∀ p ∈ postings, fitsBigint p.amount = true
  changes : ∀ p ∈ postings, fitsBigint (netChange postings p.accountId) = true
  balances : ∀ a ∈ db.accounts, netChange postings a.id ≠ 0 →
    fitsBigint (a.balance + netChange postings a.id) = true

/-- The journal of these postings can be written. -/
structure Postable (db : Database) (journalType : JournalType) (postings : List Posting)
    (transferId : Option String) : Prop extends Lawful db journalType postings transferId where
  inRange : InRange db postings

/-- The journal that gets written. -/
def newJournal (db : Database) (journalType : JournalType) (transferId : Option String) :
    LedgerJournal := ⟨Table.nextId LedgerJournal.id db.ledgerJournals, journalType, transferId⟩

/-- The state once it is. -/
def posted (db : Database) (journalType : JournalType) (postings : List Posting)
    (transferId : Option String) : Database :=
  let journal := newJournal db journalType transferId
  { db with
    ledgerJournals := db.ledgerJournals ++ [journal]
    ledgerEntries := db.ledgerEntries ++ postings.map (Posting.entry journal.id)
    accounts := shiftBalances (netChange postings) db.accounts
    updatedAt := db.updatedAt.moved (netChange postings) db.clock }

theorem shiftBalances_shiftBalances (f g : Nat → Int) (accounts : List Account) :
    shiftBalances g (shiftBalances f accounts) = shiftBalances (fun i => f i + g i) accounts := by
  simp only [shiftBalances, List.map_map]
  refine List.map_congr_left fun a _ => ?_
  simp [add_assoc]

theorem shiftBalances_zero (accounts : List Account) :
    shiftBalances (fun _ => 0) accounts = accounts := by
  simp [shiftBalances]

theorem moveBalances_zero (db : Database) : moveBalances (fun _ => 0) db = db := by
  simp [moveBalances, shiftBalances_zero, UpdatedAt.moved]

/-- Changes of different accounts add up. -/
theorem moveBalances_moveBalances {f g : Nat → Int} (hfg : ∀ i, f i = 0 ∨ g i = 0)
    (db : Database) :
    moveBalances g (moveBalances f db) = moveBalances (fun i => f i + g i) db := by
  simp only [moveBalances, shiftBalances_shiftBalances, UpdatedAt.moved]
  congr 2
  funext i
  rcases hfg i with h | h <;> simp [h]

/-- The row takes the change: the sum is a `BIGINT`, and no user ends below zero. -/
structure Account.Takes (a : Account) (delta : Int) : Prop where
  fits : fitsBigint (a.balance + delta) = true
  covered : a.ownerType = .user → 0 ≤ a.balance + delta

theorem map_update_eq (accountId : Nat) (delta : Int) (accounts : List Account) :
    (accounts.map fun a =>
      if a.id = accountId then { a with balance := a.balance + delta } else a) =
        shiftBalances (fun i => if i = accountId then delta else 0) accounts := by
  refine List.map_congr_left fun a _ => ?_
  by_cases h : a.id = accountId <;> simp [h]

theorem moved_single {delta : Int} (hd : delta ≠ 0) (u : UpdatedAt) (accountId : Nat)
    (moment : Time) : { u with accounts := Function.update u.accounts accountId moment } =
      u.moved (fun i => if i = accountId then delta else 0) moment := by
  simp only [UpdatedAt.moved]
  congr 1
  funext i
  by_cases h : i = accountId <;> simp [h, hd]

theorem updateBalance_ok {db db' : Database} {accountId : Nat} {delta : Int} {u : Unit}
    (hd : delta ≠ 0) :
    (updateBalance accountId delta).run db = .ok (u, db') ↔
      fitsBigint delta = true ∧ (∀ a ∈ db.accounts, a.id = accountId → a.Takes delta) ∧
        db' = moveBalances (fun i => if i = accountId then delta else 0) db := by
  simp only [updateBalance, map_update_eq, moved_single hd, Tx.bind_ok, Tx.get_ok, Tx.failIf_ok,
    Tx.set_ok]
  constructor
  · rintro ⟨_, _, e₁, _, _, ⟨hdelta, e₂⟩, _, _, ⟨hsums, e₃⟩, _, _, ⟨hneg, e₄⟩, e₅⟩
    cases e₁; cases e₂; cases e₃; cases e₄; cases e₅
    refine ⟨by simpa using hdelta, fun a ha hid => ⟨?_, fun hu => ?_⟩, rfl⟩
    · by_contra hover
      exact hsums ⟨_, List.mem_map_of_mem ha, hid, by simpa [hid] using hover⟩
    · by_contra hlt
      exact hneg ⟨_, List.mem_map_of_mem ha, hid, hu, by simpa [hid] using hlt⟩
  · rintro ⟨hdelta, htakes, rfl⟩
    refine ⟨db, db, rfl, (), db, ⟨by simp [hdelta], rfl⟩, (), db, ⟨?_, rfl⟩, (), db, ⟨?_, rfl⟩,
      rfl⟩
    · rintro ⟨_, hmem, hid, hover⟩
      obtain ⟨a, ha, rfl⟩ := List.mem_map.mp hmem
      simp only [if_pos hid, (htakes a ha hid).fits, Bool.true_eq_false] at hover
    · rintro ⟨_, hmem, hid, hu, hlt⟩
      obtain ⟨a, ha, rfl⟩ := List.mem_map.mp hmem
      have := (htakes a ha hid).covered hu
      simp only [if_pos hid] at hlt
      omega

/-- An update is refused for the range of its column, or for a user who would end
below zero. -/
theorem updateBalance_error {db : Database} {accountId : Nat} {delta : Int} {f : Fault}
    (h : (updateBalance accountId delta).run db = .error f) :
    f = .data .balance ∨
      ∃ a ∈ db.accounts, a.id = accountId ∧ a.ownerType = .user ∧ a.balance + delta < 0 := by
  rcases Tx.bind_error.mp h with hget | ⟨_, _, hget, h⟩
  · cases hget
  cases Tx.get_ok.mp hget
  rcases Tx.bind_error.mp h with hdelta | ⟨_, _, hdelta, h⟩
  · exact .inl (Tx.failIf_error.mp hdelta).2.symm
  obtain ⟨-, e⟩ := Tx.failIf_ok.mp hdelta
  cases e
  rcases Tx.bind_error.mp h with hsums | ⟨_, _, hsums, h⟩
  · exact .inl (Tx.failIf_error.mp hsums).2.symm
  obtain ⟨-, e⟩ := Tx.failIf_ok.mp hsums
  cases e
  rcases Tx.bind_error.mp h with hneg | ⟨_, _, -, h⟩
  · obtain ⟨⟨_, hmem, hid, hu, hlt⟩, -⟩ := Tx.failIf_error.mp hneg
    rw [map_update_eq] at hmem
    obtain ⟨a, ha, rfl⟩ := List.mem_map.mp hmem
    simp only [if_pos hid] at hlt
    exact .inr ⟨a, ha, hid, hu, hlt⟩
  · cases h

section

variable {changes : List (Nat × Int)} {id : Nat} {delta : Int} {db db' : Database}

theorem valueAt_cons_eq : Tally.valueAt ((id, delta) :: changes) =
    fun i => (if i = id then delta else 0) + Tally.valueAt changes i := by
  funext i
  rw [Tally.valueAt_cons]
  simp only [eq_comm]

/-- The head's account is not touched again: what it is changed by is the head. -/
theorem valueAt_head (hid : id ∉ changes.map Prod.fst) :
    Tally.valueAt ((id, delta) :: changes) id = delta := by
  have hrest : Tally.valueAt changes id = 0 :=
    Tally.valueAt_of_not_mem fun e he hk => hid (List.mem_map.mpr ⟨e, he, hk⟩)
  rw [valueAt_cons_eq]
  simp only [if_true, hrest, add_zero]

/-- And the head changes no other. -/
theorem valueAt_tail {i : Nat} (hne : i ≠ id) :
    Tally.valueAt ((id, delta) :: changes) i = Tally.valueAt changes i := by
  rw [valueAt_cons_eq]
  simp only [if_neg hne, zero_add]

theorem valueAt_cons_zero :
    Tally.valueAt ((id, 0) :: changes) = Tally.valueAt changes := by
  rw [valueAt_cons_eq]
  funext i
  simp

/-- The updates one after another are one shift by the entries, and they go
through exactly when every account takes its change. -/
theorem updateBalances_ok (hn : (changes.map Prod.fst).Nodup) {u : Unit} :
    (updateBalances changes).run db = .ok (u, db') ↔
      (∀ e ∈ changes, fitsBigint e.2 = true) ∧
        (∀ a ∈ db.accounts, Tally.valueAt changes a.id ≠ 0 →
          a.Takes (Tally.valueAt changes a.id)) ∧
        db' = moveBalances (Tally.valueAt changes) db := by
  induction changes generalizing db with
  | nil =>
      have hzero : Tally.valueAt ([] : List (Nat × Int)) = fun _ => 0 := rfl
      simp only [updateBalances, Tx.pure_ok, hzero, moveBalances_zero, Prod.mk.injEq]
      constructor
      · rintro ⟨_, rfl⟩
        exact ⟨by simp, fun _ _ h => absurd rfl h, rfl⟩
      · rintro ⟨-, -, rfl⟩
        exact ⟨trivial, rfl⟩
  | cons c rest ih =>
      obtain ⟨id, delta⟩ := c
      simp only [List.map_cons, List.nodup_cons] at hn
      by_cases hd : delta = 0
      · subst hd
        have hzero : fitsBigint 0 = true := rfl
        simp only [updateBalances, if_pos, List.forall_mem_cons, hzero, true_and, valueAt_cons_zero]
        exact ih hn.2
      · have happart : ∀ i, (if i = id then delta else 0) = 0 ∨ Tally.valueAt rest i = 0 := by
          intro i
          by_cases hi : i = id
          · exact .inr (Tally.valueAt_of_not_mem fun e he hk => hn.1
              (List.mem_map.mpr ⟨e, he, hk.trans hi⟩))
          · exact .inl (if_neg hi)
        have hmove : moveBalances (Tally.valueAt ((id, delta) :: rest)) db =
            moveBalances (Tally.valueAt rest)
              (moveBalances (fun i => if i = id then delta else 0) db) := by
          rw [valueAt_cons_eq, moveBalances_moveBalances happart]
        simp only [updateBalances, if_neg hd, Tx.bind_ok, updateBalance_ok hd,
          List.forall_mem_cons, hmove]
        constructor
        · rintro ⟨_, _, ⟨hdelta, htakes, rfl⟩, hrest⟩
          obtain ⟨hfits, htakes', rfl⟩ := (ih hn.2).mp hrest
          refine ⟨⟨hdelta, hfits⟩, fun a ha hne => ?_, rfl⟩
          by_cases haid : a.id = id
          · rw [haid, valueAt_head hn.1]
            exact htakes a ha haid
          · rw [valueAt_tail haid] at hne ⊢
            obtain ⟨hrange, hcov⟩ := htakes' _ (List.mem_map_of_mem ha) hne
            simp only [if_neg haid, add_zero] at hrange hcov
            exact ⟨hrange, hcov⟩
        · rintro ⟨⟨hdelta, hfits⟩, htakes, rfl⟩
          refine ⟨(), _, ⟨hdelta, fun a ha haid => ?_, rfl⟩, (ih hn.2).mpr ⟨hfits, ?_, ?_⟩⟩
          · have := htakes a ha
            rw [haid, valueAt_head hn.1] at this
            exact this hd
          · intro a' ha' hne
            obtain ⟨a, ha, rfl⟩ := List.mem_map.mp ha'
            by_cases haid : a.id = id
            · refine absurd (Tally.valueAt_of_not_mem fun e he hk => hn.1 ?_) hne
              exact List.mem_map.mpr ⟨e, he, hk.trans haid⟩
            · obtain ⟨hrange, hcov⟩ := htakes a ha (by rw [valueAt_tail haid]; exact hne)
              rw [valueAt_tail haid] at hrange hcov
              exact ⟨by simpa [haid] using hrange, by simpa [haid] using hcov⟩
          · rfl

/-- They are refused for the range of the column, or for a user who would end below
zero. -/
theorem updateBalances_error (hn : (changes.map Prod.fst).Nodup) {f : Fault}
    (h : (updateBalances changes).run db = .error f) :
    f = .data .balance ∨ ∃ a ∈ db.accounts, a.ownerType = .user ∧
      Tally.valueAt changes a.id ≠ 0 ∧ a.balance + Tally.valueAt changes a.id < 0 := by
  induction changes generalizing db with
  | nil => cases h
  | cons c rest ih =>
      obtain ⟨id, delta⟩ := c
      simp only [List.map_cons, List.nodup_cons] at hn
      by_cases hd : delta = 0
      · subst hd
        rw [valueAt_cons_zero]
        exact ih hn.2 (by simpa [updateBalances] using h)
      · simp only [updateBalances, if_neg hd] at h
        rcases Tx.bind_error.mp h with hhead | ⟨_, _, hhead, hrest⟩
        · refine (updateBalance_error hhead).imp_right ?_
          rintro ⟨a, ha, rfl, hu, hlt⟩
          refine ⟨a, ha, hu, ?_, ?_⟩ <;> rw [valueAt_head hn.1]
          · exact hd
          · exact hlt
        · obtain ⟨-, -, rfl⟩ := (updateBalance_ok hd).mp hhead
          refine (ih hn.2 hrest).imp_right ?_
          rintro ⟨_, ha', hu, hne, hlt⟩
          obtain ⟨a, ha, rfl⟩ := List.mem_map.mp ha'
          have haid : a.id ≠ id := fun haid => hne
            (Tally.valueAt_of_not_mem fun e he hk => hn.1
              (List.mem_map.mpr ⟨e, he, hk.trans haid⟩))
          refine ⟨a, ha, hu, ?_, ?_⟩ <;> rw [valueAt_tail haid]
          · exact hne
          · simpa [haid] using hlt

end

theorem valueAt_netBalanceChanges_sorted (postings : List Posting) :
    Tally.valueAt ((netBalanceChanges postings).insertionSort fun a b => a.1 ≤ b.1) =
      netChange postings := by
  funext i
  rw [Tally.valueAt_perm (List.perm_insertionSort _ _), netBalanceChanges, Tally.valueAt_tally]
  rfl

theorem insertJournal_ok {db db' : Database} {journalType : JournalType}
    {transferId : Option String} {j : LedgerJournal} :
    (insertJournal journalType transferId).run db = .ok (j, db') ↔
      decide (journalType = .seed) = transferId.isNone ∧
      (transferId.isSome →
        ∀ j ∈ db.ledgerJournals, ¬ (j.transferId = transferId ∧ j.journalType = journalType)) ∧
      (∀ id ∈ transferId, ∃ t ∈ db.transfers, t.id = id) ∧
      j = newJournal db journalType transferId ∧
      db' = { db with
        ledgerJournals := db.ledgerJournals ++ [newJournal db journalType transferId] } := by
  simp only [insertJournal, Tx.bind_ok, Tx.get_ok, Tx.failIf_ok, Tx.set_ok, Tx.pure_ok]
  constructor
  · rintro ⟨_, _, e₁, _, _, ⟨h₁, e₂⟩, _, _, ⟨h₂, e₃⟩, _, _, ⟨h₃, e₄⟩, _, _, e₅, e₆⟩
    cases e₁; cases e₂; cases e₃; cases e₄; cases e₅; cases e₆
    refine ⟨not_ne_iff.mp h₁, fun hs j hj hjt => h₂ ⟨hs, j, hj, hjt⟩, fun id hid => ?_, rfl, rfl⟩
    by_contra hno
    exact h₃ ⟨id, hid, hno⟩
  · rintro ⟨h₁, h₂, h₃, rfl, rfl⟩
    refine ⟨db, db, rfl, (), db, ⟨not_ne_iff.mpr h₁, rfl⟩, (), db, ⟨?_, rfl⟩, (), db, ⟨?_, rfl⟩,
      ⟨⟩, _, rfl, rfl⟩
    · rintro ⟨hs, j, hj, hjt⟩; exact h₂ hs j hj hjt
    · rintro ⟨id, hid, hno⟩; exact hno (h₃ id hid)

theorem insertEntries_ok {db db' : Database} {journalId : Nat} {postings : List Posting}
    {u : Unit} :
    (insertEntries journalId postings).run db = .ok (u, db') ↔
      (∀ p ∈ postings, fitsBigint p.amount = true) ∧ (∀ p ∈ postings, 0 < p.amount) ∧
      (∀ p ∈ postings, db.hasAccount p.accountId p.programId = true) ∧
      db' = { db with
        ledgerEntries := db.ledgerEntries ++ postings.map (Posting.entry journalId) } := by
  simp only [insertEntries, Tx.bind_ok, Tx.get_ok, Tx.failIf_ok, Tx.set_ok]
  constructor
  · rintro ⟨_, _, e₁, _, _, ⟨h₀, e₀⟩, _, _, ⟨h₁, e₂⟩, _, _, ⟨h₂, e₃⟩, e₄⟩
    cases e₁; cases e₀; cases e₂; cases e₃; cases e₄
    refine ⟨fun p hp => ?_, fun p hp => ?_, fun p hp => ?_, rfl⟩
    · by_contra hno; exact h₀ ⟨p, hp, by simpa using hno⟩
    · by_contra hno; exact h₁ ⟨p, hp, hno⟩
    · by_contra hno; exact h₂ ⟨p, hp, by simpa using hno⟩
  · rintro ⟨h₀, h₁, h₂, rfl⟩
    refine ⟨db, db, rfl, (), db, ⟨?_, rfl⟩, (), db, ⟨?_, rfl⟩, (), db, ⟨?_, rfl⟩, rfl⟩
    · rintro ⟨p, hp, hno⟩; rw [h₀ p hp] at hno; cases hno
    · rintro ⟨p, hp, hno⟩; exact hno (h₁ p hp)
    · rintro ⟨p, hp, hno⟩; rw [h₂ p hp] at hno; cases hno

/-- A journal is valid when it has two postings, positive amounts and a zero net
in each program. -/
theorem validateJournal_ok {postings : List Posting} :
    validateJournal postings = .ok () ↔
      2 ≤ postings.length ∧ (∀ p ∈ postings, 0 < p.amount) ∧
        ∀ p ∈ postings,
          Tally.total Posting.programId Posting.signedAmount postings p.programId = 0 := by
  have hpos : (postings.find? fun p => decide (p.amount ≤ 0)) = none ↔
      ∀ p ∈ postings, 0 < p.amount := by
    simp [List.find?_eq_none]
  have hnet : ((Tally.tally Posting.programId Posting.signedAmount postings).filter fun e =>
      decide (e.2 ≠ 0)) = [] ↔ ∀ p ∈ postings,
        Tally.total Posting.programId Posting.signedAmount postings p.programId = 0 := by
    rw [List.filter_eq_nil_iff]
    constructor
    · intro h p hp
      simpa using h _ (Tally.mem_tally.mpr ⟨⟨p, hp, rfl⟩, rfl⟩)
    · rintro h ⟨k, d⟩ he
      obtain ⟨⟨p, hp, rfl⟩, rfl⟩ := Tally.mem_tally.mp he
      simp [h p hp]
  by_cases hlen : postings.length < 2
  · simp only [validateJournal, if_pos hlen, reduceCtorEq, false_iff]
    omega
  · simp only [validateJournal, if_neg hlen, not_lt.mp hlen, true_and, ← hpos, ← hnet]
    cases hfind : postings.find? fun p => decide (p.amount ≤ 0) with
    | some p => simp
    | none => simp

theorem nodup_netBalanceChanges (postings : List Posting) :
    (((netBalanceChanges postings).insertionSort fun a b => a.1 ≤ b.1).map Prod.fst).Nodup :=
  ((List.perm_insertionSort _ _).map _).nodup_iff.mpr Tally.nodup_keys_tally

/-- The changes are those of the accounts the postings name. -/
theorem forall_netBalanceChanges {postings : List Posting} {P : Int → Prop} :
    (∀ e ∈ (netBalanceChanges postings).insertionSort fun a b => a.1 ≤ b.1, P e.2) ↔
      ∀ p ∈ postings, P (netChange postings p.accountId) := by
  simp only [List.mem_insertionSort]
  constructor
  · intro h p hp
    exact h (p.accountId, netChange postings p.accountId) (Tally.mem_tally.mpr ⟨⟨p, hp, rfl⟩, rfl⟩)
  · rintro h ⟨id, delta⟩ he
    obtain ⟨⟨p, hp, rfl⟩, rfl⟩ := Tally.mem_tally.mp he
    exact h p hp

/-- `postJournal`, in full. -/
theorem postJournal_ok {db db' : Database} {journalType : JournalType} {postings : List Posting}
    {transferId : Option String} {j : LedgerJournal} :
    (postJournal journalType postings transferId).run db = .ok (j, db') ↔
      Postable db journalType postings transferId ∧
        j = newJournal db journalType transferId ∧
        db' = posted db journalType postings transferId := by
  simp only [postJournal, Tx.bind_ok, Tx.ofExcept_ok, insertJournal_ok, insertEntries_ok,
    updateBalances_ok (nodup_netBalanceChanges postings), valueAt_netBalanceChanges_sorted,
    forall_netBalanceChanges (P := fun delta => fitsBigint delta = true), Tx.pure_ok]
  constructor
  · rintro ⟨_, _, ⟨_, hv, e₁⟩, _, _, ⟨hlink, hfresh, htr, rfl, rfl⟩, _, _, ⟨hfit, -, hacc, rfl⟩,
      _, _, ⟨hchanges, htakes, rfl⟩, e₂⟩
    cases e₁; cases e₂
    have hvalid : validateJournal postings = .ok () := by
      cases hj : validateJournal postings with
      | error e => rw [hj] at hv; cases hv
      | ok u => rfl
    exact ⟨⟨⟨hvalid, hlink, hfresh, htr, hacc, fun a ha hu hne => (htakes a ha hne).covered hu⟩,
      ⟨hfit, hchanges, fun a ha hne => (htakes a ha hne).fits⟩⟩, rfl, rfl⟩
  · rintro ⟨h, rfl, rfl⟩
    refine ⟨(), db, ⟨(), by rw [h.valid]; rfl, rfl⟩, _, _,
      ⟨h.link, h.fresh, h.transfer, rfl, rfl⟩, (), _,
      ⟨h.inRange.amounts, (validateJournal_ok.mp h.valid).2.1, h.accounts, rfl⟩, (), _,
      ⟨h.inRange.changes, fun a ha hne => ⟨h.inRange.balances a ha hne, fun hu => ?_⟩, rfl⟩, rfl⟩
    exact h.covered a ha hu hne

/-- Entries with positive amounts over existing accounts are refused for the range of
their column only. -/
theorem insertEntries_error {db : Database} {journalId : Nat} {postings : List Posting} {f : Fault}
    (hpos : ∀ p ∈ postings, 0 < p.amount)
    (haccounts : ∀ p ∈ postings, db.hasAccount p.accountId p.programId = true)
    (h : (insertEntries journalId postings).run db = .error f) : f = .data .amount := by
  rcases Tx.bind_error.mp h with hget | ⟨_, _, hget, h⟩
  · cases hget
  cases Tx.get_ok.mp hget
  rcases Tx.bind_error.mp h with hfit | ⟨_, _, hfit, h⟩
  · exact (Tx.failIf_error.mp hfit).2.symm
  obtain ⟨-, e⟩ := Tx.failIf_ok.mp hfit
  cases e
  rcases Tx.bind_error.mp h with hcheck | ⟨_, _, hcheck, h⟩
  · obtain ⟨⟨p, hp, hno⟩, -⟩ := Tx.failIf_error.mp hcheck
    exact absurd (hpos p hp) hno
  obtain ⟨-, e⟩ := Tx.failIf_ok.mp hcheck
  cases e
  rcases Tx.bind_error.mp h with hkey | ⟨_, _, -, h⟩
  · obtain ⟨⟨p, hp, hno⟩, -⟩ := Tx.failIf_error.mp hkey
    rw [haccounts p hp] at hno
    cases hno
  · cases h

/-- A journal that keeps the rules is refused for the range of a column only. -/
theorem postJournal_error {db : Database} {journalType : JournalType} {postings : List Posting}
    {transferId : Option String} {f : Fault} (h : Lawful db journalType postings transferId)
    (hrun : (postJournal journalType postings transferId).run db = .error f) :
    ∃ c, f = .data c := by
  rcases Tx.bind_error.mp hrun with hvalid | ⟨_, _, hvalid, hrun⟩
  · rw [h.valid] at hvalid
    cases hvalid
  obtain ⟨_, -, e⟩ := Tx.ofExcept_ok.mp hvalid
  cases e
  have hjournal := insertJournal_ok.mpr ⟨h.link, h.fresh, h.transfer, rfl, rfl⟩
  rcases Tx.bind_error.mp hrun with hno | ⟨_, _, hj, hrun⟩
  · cases hjournal.symm.trans hno
  cases hjournal.symm.trans hj
  rcases Tx.bind_error.mp hrun with hentries | ⟨_, _, hentries, hrun⟩
  · -- the accounts are those from before the journal row
    have haccounts : ∀ p ∈ postings, Database.hasAccount { db with
        ledgerJournals := db.ledgerJournals ++ [newJournal db journalType transferId] }
          p.accountId p.programId = true := h.accounts
    exact ⟨_, insertEntries_error (validateJournal_ok.mp h.valid).2.1 haccounts hentries⟩
  obtain ⟨-, -, -, rfl⟩ := insertEntries_ok.mp hentries
  rcases Tx.bind_error.mp hrun with hbalances | ⟨_, _, -, hrun⟩
  · rcases updateBalances_error (nodup_netBalanceChanges postings) hbalances with hf |
      ⟨a, ha, hu, hne, hlt⟩
    · exact ⟨_, hf⟩
    · rw [valueAt_netBalanceChanges_sorted] at hne hlt
      exact absurd (h.covered a ha hu hne) (not_le.mpr hlt)
  · cases hrun

/-! ## What the account queries find -/

theorem lockAccountsForUpdate_ok {db db' : Database} {ids : List Nat} {accounts : List Account} :
    (lockAccountsForUpdate ids).run db = .ok (accounts, db') ↔
      (∀ id ∈ ids, ∃ a ∈ db.accounts, a.id = id) ∧
      accounts = (db.accounts.filter fun a => decide (a.id ∈ ids)) ∧ db' = db := by
  simp only [lockAccountsForUpdate, Tx.bind_ok, Tx.get_ok, Tx.failIf_ok, Tx.pure_ok]
  constructor
  · rintro ⟨_, _, e₁, _, _, ⟨h₁, e₂⟩, e₃⟩
    cases e₁; cases e₂; cases e₃
    refine ⟨fun id hid => ?_, rfl, rfl⟩
    by_contra hno
    refine h₁ (List.ne_nil_of_mem (List.mem_filter.mpr ⟨List.mem_dedup.mpr hid, ?_⟩))
    simp only [decide_eq_true_eq, List.mem_filter]
    rintro a ⟨ha, -⟩ haid
    exact hno ⟨a, ha, haid⟩
  · rintro ⟨h, rfl, rfl⟩
    refine ⟨_, _, rfl, (), _, ⟨?_, rfl⟩, rfl⟩
    rw [not_not, List.filter_eq_nil_iff]
    intro id hid
    obtain ⟨a, ha, haid⟩ := h id (List.mem_dedup.mp hid)
    simp only [decide_eq_true_eq, not_forall, not_not]
    exact ⟨a, List.mem_filter.mpr ⟨ha, by simpa [haid] using List.mem_dedup.mp hid⟩, haid⟩

/-- The dictionary the lock returns holds the row of each locked account. -/
theorem lookup_locked {accounts : List Account} {ids : List Nat} {id : Nat} (hid : id ∈ ids) :
    Table.lookup Account.id id (accounts.filter fun a => decide (a.id ∈ ids)) =
      Table.lookup Account.id id accounts := by
  simp only [Table.lookup, List.find?_filter]
  congr 1
  funext a
  by_cases h : a.id = id
  · simp [h, hid]
  · simp [h]

theorem systemAccount?_spec {db : Database} {programId : Nat} {accountType : AccountType}
    {a : Account} (h : db.systemAccount? programId accountType = some a) :
    a ∈ db.accounts ∧ a.ownerType = .system ∧ a.programId = programId ∧
      a.accountType = accountType :=
  ⟨List.mem_of_find?_eq_some h, by simpa using List.find?_some h⟩

theorem userAccount?_spec {db : Database} {userId : String} {programId : Nat} {a : Account}
    (h : db.userAccount? userId programId = some a) :
    a ∈ db.accounts ∧ a.ownerType = .user ∧ a.userId = some userId ∧ a.programId = programId :=
  ⟨List.mem_of_find?_eq_some h, by simpa using List.find?_some h⟩

end LoyaltyTransfer
