/-
# `LoyaltyTransfer.LedgerInvariants` — what the ledger report checks

`app/services/ledger_invariants.py`: four queries, one row for each violation.

    program_balances_sum_to_zero        points are neither made nor lost
    journals_balanced_per_program       debits = credits in each journal and program
    account_balance_matches_entries     balance = CREDITs − DEBITs
    user_balances_non_negative

A journal is checked by the program its postings name, the balances move by
account, and zero changes are skipped.  The two views meet in the composite
foreign key: an entry names an account together with the program of that account.

**Proved here.**  From accounts at zero without entries, any sequence of
`post_journal` calls, whatever their postings, keeps all four (`Booked.post`), so
the report stays empty (`journals_leave_no_violation`).
-/
import LoyaltyTransfer.Ledger

namespace LoyaltyTransfer

open Transaction

/-! ## The queries -/

def LedgerEntry.signedAmount (e : LedgerEntry) : Int :=
  match e.direction with
  | .credit => e.amount
  | .debit => -e.amount

/-- The sum of the amounts of the entries in one direction. -/
def amountIn (direction : EntryDirection) (entries : List LedgerEntry) : Int :=
  ((entries.filter fun e => decide (e.direction = direction)).map LedgerEntry.amount).sum

/-- The row of a report. -/
abbrev Detail := List (String × Json.Value)

/-- `accounts JOIN programs`, grouped by the program's code. -/
def programBalancesSumToZero (db : Database) : List Detail :=
  let rows := db.programs.flatMap fun p =>
    (db.accounts.filter fun a => decide (a.programId = p.id)).map fun a => (p.code, a.balance)
  ((Tally.tally Prod.fst Prod.snd rows).filter fun g => decide (g.2 ≠ 0)).map fun g =>
    [("program", .str g.1), ("total", .int g.2)]

/-- The entries of one journal in one program. -/
def Database.journalEntries (db : Database) (journalId programId : Nat) : List LedgerEntry :=
  db.ledgerEntries.filter fun e => decide (e.journalId = journalId ∧ e.programId = programId)

def journalsBalancedPerProgram (db : Database) : List Detail :=
  let groups := (db.ledgerEntries.map fun e => (e.journalId, e.programId)).dedup
  groups.filterMap fun g =>
    let debits := amountIn .debit (db.journalEntries g.1 g.2)
    let credits := amountIn .credit (db.journalEntries g.1 g.2)
    if debits ≠ credits then some [("journal_id", .int g.1), ("program_id", .int g.2),
      ("debits", .int debits), ("credits", .int credits)]
    else none

/-- `_LEDGER_BALANCE` of an account. -/
def Database.ledgerBalance (db : Database) (accountId : Nat) : Int :=
  Tally.total LedgerEntry.accountId LedgerEntry.signedAmount db.ledgerEntries accountId

def accountBalanceMatchesEntries (db : Database) : List Detail :=
  db.accounts.filterMap fun a =>
    if a.balance ≠ db.ledgerBalance a.id then some [("account_id", .int a.id),
      ("stored_balance", .int a.balance), ("ledger_balance", .int (db.ledgerBalance a.id))]
    else none

def userBalancesNonNegative (db : Database) : List Detail :=
  (db.accounts.filter fun a => decide (a.ownerType = .user ∧ a.balance < 0)).map fun a =>
    [("account_id", .int a.id), ("balance", .int a.balance)]

/-- `INVARIANTS`. -/
def invariants : List (String × (Database → List Detail)) :=
  [("program_balances_sum_to_zero", programBalancesSumToZero),
    ("journals_balanced_per_program", journalsBalancedPerProgram),
    ("account_balance_matches_entries", accountBalanceMatchesEntries),
    ("user_balances_non_negative", userBalancesNonNegative)]

structure InvariantViolation where
  invariant : String
  detail : Detail

def findViolations (db : Database) : List InvariantViolation :=
  invariants.flatMap fun i => (i.2 db).map (InvariantViolation.mk i.1)

/-! ## The invariant -/

/-- The sum of the balances of a program's accounts. -/
def Database.programTotal (db : Database) (programId : Nat) : Int :=
  Tally.total Account.programId Account.balance db.accounts programId

structure Booked (db : Database) : Prop where
  accountIds : (db.accounts.map Account.id).Nodup
  balances : ∀ a ∈ db.accounts, a.balance = db.ledgerBalance a.id
  programs : ∀ programId, db.programTotal programId = 0
  journals : ∀ journalId programId,
    ((db.journalEntries journalId programId).map LedgerEntry.signedAmount).sum = 0
  users : ∀ a ∈ db.accounts, a.ownerType = .user → 0 ≤ a.balance

section

variable {db : Database} {journalType : JournalType} {postings : List Posting}
  {transferId : Option String}

theorem entry_signedAmount (journalId : Nat) (p : Posting) :
    (p.entry journalId).signedAmount = p.signedAmount := rfl

theorem sum_signedAmount (entries : List LedgerEntry) :
    (entries.map LedgerEntry.signedAmount).sum =
      amountIn .credit entries - amountIn .debit entries := by
  induction entries with
  | nil => rfl
  | cons e entries ih =>
      rw [List.map_cons, List.sum_cons, ih]
      cases hd : e.direction <;>
        simp only [amountIn, LedgerEntry.signedAmount, List.filter_cons, hd, reduceCtorEq,
          decide_true, decide_false, if_true, if_false, Bool.false_eq_true, List.map_cons,
          List.sum_cons] <;> ring

/-- The change of one account, added up over the accounts of a program: what one
posting adds counts once, for the program it names. -/
theorem total_accounts_single {accounts : List Account} (hn : (accounts.map Account.id).Nodup)
    {accountId programId : Nat} {a₀ : Account} (ha₀ : a₀ ∈ accounts) (hid : a₀.id = accountId)
    (hprogram : a₀.programId = programId) (amount : Int) (k : Nat) :
    Tally.total Account.programId (fun a => if accountId = a.id then amount else 0) accounts k =
      if programId = k then amount else 0 := by
  induction accounts with
  | nil => cases ha₀
  | cons a accounts ih =>
      rw [List.map_cons, List.nodup_cons] at hn
      rw [Tally.total_cons]
      rcases List.mem_cons.mp ha₀ with rfl | ha₀
      · have hrest : Tally.total Account.programId
            (fun a => if accountId = a.id then amount else 0) accounts k = 0 := by
          rw [Tally.total]
          refine List.sum_eq_zero ?_
          intro x hx
          obtain ⟨b, hb, rfl⟩ := List.mem_map.mp hx
          rw [if_neg]
          intro heq
          refine hn.1 (List.mem_map.mpr ⟨b, (List.mem_filter.mp hb).1, ?_⟩)
          rw [← heq, hid]
        rw [hrest, if_pos hid.symm, hprogram, add_zero]
      · have hne : ¬ accountId = a.id := by
          intro heq
          exact hn.1 (List.mem_map.mpr ⟨a₀, ha₀, hid.trans heq⟩)
        rw [ih hn.2 ha₀, if_neg hne, ite_self, zero_add]

/-- The changes of a program's accounts add up to the net of the postings that
name the program. -/
theorem total_netChange (hn : (db.accounts.map Account.id).Nodup)
    (haccounts : ∀ p ∈ postings, db.hasAccount p.accountId p.programId = true) (k : Nat) :
    Tally.total Account.programId (fun a => netChange postings a.id) db.accounts k =
      Tally.total Posting.programId Posting.signedAmount postings k := by
  induction postings with
  | nil => simp [netChange, Tally.total]
  | cons p postings ih =>
      obtain ⟨a₀, ha₀, hfound⟩ := List.any_eq_true.mp (haccounts p (List.mem_cons_self ..))
      have hfound := of_decide_eq_true hfound
      have hsplit : Tally.total Account.programId (fun a => netChange (p :: postings) a.id)
          db.accounts k =
          Tally.total Account.programId (fun a => if p.accountId = a.id then p.signedAmount else 0)
            db.accounts k +
          Tally.total Account.programId (fun a => netChange postings a.id) db.accounts k := by
        simp only [netChange, Tally.total_cons]
        simp only [Tally.total, List.sum_map_add]
      rw [hsplit, total_accounts_single hn ha₀ hfound.1 hfound.2,
        ih fun q hq => haccounts q (List.mem_cons_of_mem _ hq), Tally.total_cons]

/-- A valid journal nets to zero in every program. -/
theorem valid_total (h : validateJournal postings = .ok ()) (k : Nat) :
    Tally.total Posting.programId Posting.signedAmount postings k = 0 := by
  by_cases hk : ∃ p ∈ postings, p.programId = k
  · obtain ⟨p, hp, rfl⟩ := hk
    exact (validateJournal_ok.mp h).2.2 p hp
  · exact Tally.total_of_not_mem fun p hp hpk => hk ⟨p, hp, hpk⟩

theorem posted_journalEntries (journalId programId : Nat) :
    (posted db journalType postings transferId).journalEntries journalId programId =
      db.journalEntries journalId programId ++
        (if Table.nextId LedgerJournal.id db.ledgerJournals = journalId then
          (postings.filter fun p => decide (p.programId = programId)).map
            (Posting.entry journalId)
        else []) := by
  simp only [Database.journalEntries, posted, newJournal, List.filter_append, List.filter_map]
  congr 1
  by_cases hj : Table.nextId LedgerJournal.id db.ledgerJournals = journalId
  · rw [if_pos hj]
    simp only [Function.comp_def, Posting.entry, hj, true_and]
  · rw [if_neg hj]
    simp only [Function.comp_def, Posting.entry, hj, false_and, decide_false, List.filter_false,
      List.map_nil]

theorem Booked.post (h : Booked db) (hp : Lawful db journalType postings transferId) :
    Booked (posted db journalType postings transferId) where
  accountIds := by
    simp only [posted, shiftBalances, List.map_map]
    exact h.accountIds
  balances := by
    intro a' ha'
    obtain ⟨a, ha, rfl⟩ := List.mem_map.mp ha'
    simp only [Database.ledgerBalance, posted, Tally.total_append, Tally.total_map,
      entry_signedAmount]
    rw [h.balances a ha]
    rfl
  programs := by
    intro programId
    have hshift : (posted db journalType postings transferId).programTotal programId =
        db.programTotal programId +
          Tally.total Account.programId (fun a => netChange postings a.id) db.accounts
            programId := by
      simp only [Database.programTotal, posted, shiftBalances, Tally.total_map]
      simp only [Tally.total, List.sum_map_add]
    rw [hshift, h.programs, total_netChange h.accountIds hp.accounts, valid_total hp.valid,
      add_zero]
  journals := by
    intro journalId programId
    rw [posted_journalEntries, List.map_append, List.sum_append, h.journals, zero_add]
    split
    · rw [List.map_map]
      exact valid_total hp.valid programId
    · rfl
  users := by
    intro a' ha' hu
    obtain ⟨a, ha, rfl⟩ := List.mem_map.mp ha'
    by_cases hzero : netChange postings a.id = 0
    · simp only [hzero, add_zero]
      exact h.users a ha hu
    · exact hp.covered a ha hu hzero

end

/-! ## A sequence of calls -/

/-- The arguments of a `post_journal` call. -/
structure JournalCall where
  journalType : JournalType
  postings : List Posting
  transferId : Option String

/-- The calls one after another, each in its own `unit_of_work`. -/
def postAll (db : Database) (calls : List JournalCall) : Database :=
  calls.foldl (fun db c => ((postJournal c.journalType c.postings c.transferId).commit db).2) db

section

variable {db : Database}

theorem Booked.commit (h : Booked db) (c : JournalCall) :
    Booked ((postJournal c.journalType c.postings c.transferId).commit db).2 := by
  rcases Tx.commit_cases (postJournal c.journalType c.postings c.transferId) db with
    ⟨j, db', hrun, hc⟩ | ⟨e, -, hc⟩
  · rw [hc]
    obtain ⟨hp, -, rfl⟩ := postJournal_ok.mp hrun
    exact h.post hp.toLawful
  · rw [hc]
    exact h

theorem Booked.postAll (h : Booked db) (calls : List JournalCall) :
    Booked (LoyaltyTransfer.postAll db calls) := by
  induction calls generalizing db with
  | nil => exact h
  | cons c calls ih => exact ih (h.commit c)

theorem Booked.noViolations (h : Booked db) : findViolations db = [] := by
  have hprograms : programBalancesSumToZero db = [] := by
    simp only [programBalancesSumToZero, List.map_eq_nil_iff, List.filter_eq_nil_iff]
    rintro ⟨code, total⟩ hg
    obtain ⟨-, rfl⟩ := Tally.mem_tally.mp hg
    rw [decide_eq_true_eq, not_not, Tally.total_flatMap]
    refine List.sum_eq_zero ?_
    intro x hx
    obtain ⟨p, -, rfl⟩ := List.mem_map.mp hx
    rw [Tally.total_map]
    by_cases hcode : p.code = code
    · simp only [Tally.total, hcode, decide_true, List.filter_true]
      exact h.programs p.id
    · exact Tally.total_of_not_mem fun _ _ => hcode
  have hjournals : journalsBalancedPerProgram db = [] := by
    simp only [journalsBalancedPerProgram, List.filterMap_eq_nil_iff]
    intro g _
    have hnet := h.journals g.1 g.2
    rw [sum_signedAmount] at hnet
    rw [if_neg]
    omega
  have hbalances : accountBalanceMatchesEntries db = [] := by
    simp only [accountBalanceMatchesEntries, List.filterMap_eq_nil_iff]
    intro a ha
    rw [if_neg (not_not.mpr (h.balances a ha))]
  have husers : userBalancesNonNegative db = [] := by
    simp only [userBalancesNonNegative, List.map_eq_nil_iff, List.filter_eq_nil_iff]
    intro a ha hneg
    obtain ⟨hu, hlt⟩ := of_decide_eq_true hneg
    have hpos := h.users a ha hu
    omega
  simp [findViolations, invariants, hprograms, hjournals, hbalances, husers]

/-- From accounts at zero and no entries, whatever journals are posted: balances
are credits less debits, each program's balances add up to zero, every journal
balances in every program, no user is below zero, and the report is empty. -/
theorem journals_leave_no_violation {db₀ : Database}
    (haccounts : (db₀.accounts.map Account.id).Nodup)
    (hbalances : ∀ a ∈ db₀.accounts, a.balance = 0) (hentries : db₀.ledgerEntries = [])
    (calls : List JournalCall) :
    (∀ a ∈ (postAll db₀ calls).accounts, a.balance =
      amountIn .credit ((postAll db₀ calls).ledgerEntries.filter fun e =>
        decide (e.accountId = a.id)) -
      amountIn .debit ((postAll db₀ calls).ledgerEntries.filter fun e =>
        decide (e.accountId = a.id))) ∧
    (∀ programId, (((postAll db₀ calls).accounts.filter fun a =>
      decide (a.programId = programId)).map Account.balance).sum = 0) ∧
    (∀ journalId programId,
      amountIn .debit ((postAll db₀ calls).journalEntries journalId programId) =
        amountIn .credit ((postAll db₀ calls).journalEntries journalId programId)) ∧
    (∀ a ∈ (postAll db₀ calls).accounts, a.ownerType = .user → 0 ≤ a.balance) ∧
    findViolations (postAll db₀ calls) = [] := by
  have hfresh : Booked db₀ := by
    refine ⟨haccounts, ?_, ?_, ?_, ?_⟩
    · intro a ha
      rw [hbalances a ha, Database.ledgerBalance, hentries]
      rfl
    · intro programId
      refine List.sum_eq_zero ?_
      intro x hx
      obtain ⟨a, ha, rfl⟩ := List.mem_map.mp hx
      exact hbalances a (List.mem_filter.mp ha).1
    · simp [Database.journalEntries, hentries]
    · intro a ha _
      rw [hbalances a ha]
  have h := hfresh.postAll calls
  refine ⟨?_, h.programs, ?_, h.users, h.noViolations⟩
  · intro a ha
    rw [← sum_signedAmount]
    exact h.balances a ha
  · intro journalId programId
    have hnet := h.journals journalId programId
    rw [sum_signedAmount] at hnet
    omega

end

/-- A program with its settlement account and one user, before the first journal. -/
def unbooked : Database where
  users := ["user_alice"]
  programs := [⟨1, "NOVA_REWARDS", "Nova Rewards", .card, "NOVA", true⟩]
  conversionRates := []
  transferBonuses := []
  accounts := [⟨1, .system, none, 1, .partnerSettlement, none, 0⟩,
    ⟨2, .user, some "user_alice", 1, .userBalance, some "NOVA-1", 0⟩]
  transfers := []
  transferEvents := []
  ledgerJournals := []
  ledgerEntries := []
  updatedAt := .blank
  clock := 0

/-- An opening balance of 100, and a journal the user cannot pay for. -/
def openingCalls : List JournalCall :=
  [⟨.seed, [⟨2, 1, .credit, 100⟩, ⟨1, 1, .debit, 100⟩], none⟩,
    ⟨.seed, [⟨2, 1, .debit, 500⟩, ⟨1, 1, .credit, 500⟩], none⟩]

theorem journals_leave_no_violation_opening :
    (postAll unbooked openingCalls).accounts.map Account.balance = [-100, 100] ∧
      findViolations (postAll unbooked openingCalls) = [] := by
  refine ⟨by decide +kernel, ?_⟩
  exact (journals_leave_no_violation (by decide) (by decide) rfl openingCalls).2.2.2.2

end LoyaltyTransfer
