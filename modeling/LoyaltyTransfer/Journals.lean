/-
# `LoyaltyTransfer.Journals` — a journal as one transaction

`post_journal` inside a `unit_of_work`.  Whether the journal stands is decided in
five places: the validator, the constraints on the journal row, those on the
entries, the CHECK on each updated account, and at COMMIT the deferred trigger
that sums the journal once more.

    unit_of_work commits  ⟺  `Acceptable`

**Proved here.**  The equivalence, what a commit does to the balances, that a
failure leaves nothing, and that the order of the postings does not matter
(`post_journal_unit_of_work`).  The trigger never has the last word: whatever it
would refuse has been refused (`journal_trigger_passes`).
-/
import LoyaltyTransfer.LedgerInvariants

namespace LoyaltyTransfer

open Transaction

/-! ## The transaction -/

/-- Why a `unit_of_work` does not commit: its block raised, or the deferred
trigger did. -/
inductive CommitFault where
  | raised (fault : Fault)
  | trigger (message : String)

/-- `SUM(CASE WHEN direction = … THEN amount ELSE 0 END)`. -/
def caseSum (direction : EntryDirection) (entries : List LedgerEntry) : Int :=
  (entries.map fun e => if e.direction = direction then e.amount else 0).sum

/-- `SELECT program_id … GROUP BY program_id HAVING … LIMIT 1`. -/
def Database.unbalancedProgram? (db : Database) (journalId : Nat) : Option Nat :=
  let rows := db.ledgerEntries.filter fun e => decide (e.journalId = journalId)
  (rows.map LedgerEntry.programId).dedup.find? fun programId =>
    decide (caseSum .debit (db.journalEntries journalId programId) ≠
      caseSum .credit (db.journalEntries journalId programId))

/-- `check_ledger_journal_balanced`, for one entry at COMMIT, with what it raises. -/
def Database.checkLedgerJournalBalanced (db : Database) (new : LedgerEntry) :
    Except String Unit :=
  match db.unbalancedProgram? new.journalId with
  | some programId =>
      throw s!"ledger journal {new.journalId} is unbalanced for program {programId}"
  | none => pure ()

/-- One database transaction: the block, and at COMMIT the trigger for each entry
it has inserted. -/
def unitOfWork {α : Type} (block : DbTx α) (db : Database) : Except CommitFault α × Database :=
  match block.run db with
  | .error fault => (.error (.raised fault), db)
  | .ok (a, db') =>
      let inserted := db'.ledgerEntries.drop db.ledgerEntries.length
      match inserted.forM db'.checkLedgerJournalBalanced with
      | .error message => (.error (.trigger message), db)
      | .ok () => (.ok a, db')

/-! ## What the trigger asks -/

theorem caseSum_eq (direction : EntryDirection) (entries : List LedgerEntry) :
    caseSum direction entries = amountIn direction entries := by
  induction entries with
  | nil => rfl
  | cons e entries ih =>
      rw [caseSum, List.map_cons, List.sum_cons, ← caseSum, ih, amountIn, amountIn,
        List.filter_cons]
      split
      · rename_i hd
        rw [if_pos (decide_eq_true hd), List.map_cons, List.sum_cons]
      · rename_i hd
        rw [if_neg (by simpa using hd), Int.zero_add]

/-- The trigger raises for no entry of the journal when in each program its debits
equal its credits. -/
theorem checkLedgerJournalBalanced_ok {db : Database} {e : LedgerEntry} :
    db.checkLedgerJournalBalanced e = .ok () ↔
      ∀ x ∈ db.ledgerEntries, x.journalId = e.journalId →
        amountIn .debit (db.journalEntries e.journalId x.programId) =
          amountIn .credit (db.journalEntries e.journalId x.programId) := by
  have hnone : db.checkLedgerJournalBalanced e = .ok () ↔
      db.unbalancedProgram? e.journalId = none := by
    rw [Database.checkLedgerJournalBalanced]
    cases db.unbalancedProgram? e.journalId with
    | none => exact ⟨fun _ => rfl, fun _ => rfl⟩
    | some k =>
        constructor
        · intro h
          cases h
        · intro h
          cases h
  rw [hnone, Database.unbalancedProgram?, List.find?_eq_none]
  simp only [List.mem_dedup, List.mem_map, List.mem_filter, decide_eq_true_eq, not_not, ne_eq,
    caseSum_eq]
  constructor
  · intro h x hx hj
    exact h x.programId ⟨x, ⟨hx, hj⟩, rfl⟩
  · rintro h k ⟨x, ⟨hx, hj⟩, rfl⟩
    exact h x hx hj

theorem forM_ok {ε α : Type} {f : α → Except ε Unit} {xs : List α}
    (h : ∀ x ∈ xs, f x = .ok ()) : xs.forM f = .ok () := by
  induction xs with
  | nil => rfl
  | cons x xs ih =>
      rw [List.forM, h x (List.mem_cons_self ..)]
      exact ih fun y hy => h y (List.mem_cons_of_mem _ hy)

/-! ## When it commits -/

/-- What is posted to a program in one direction. -/
def postedIn (direction : EntryDirection) (programId : Nat) (postings : List Posting) : Int :=
  ((postings.filter fun p => decide (p.direction = direction ∧ p.programId = programId)).map
    Posting.amount).sum

/-- The constraints of the schema that posting a journal meets: the CHECK on user
balances and the foreign key of the entries. -/
structure Database.Constrained (db : Database) : Prop where
  userBalances : ∀ a ∈ db.accounts, a.ownerType = .user → 0 ≤ a.balance
  entryJournals : ∀ e ∈ db.ledgerEntries, ∃ j ∈ db.ledgerJournals, j.id = e.journalId

/-- The journal stands. -/
structure Acceptable (db : Database) (journalType : JournalType) (postings : List Posting)
    (transferId : Option String) : Prop where
  two : 2 ≤ postings.length
  positive : ∀ p ∈ postings, 0 < p.amount
  balanced : ∀ programId, postedIn .debit programId postings = postedIn .credit programId postings
  accounts : ∀ p ∈ postings, ∃ a ∈ db.accounts, a.id = p.accountId ∧ a.programId = p.programId
  transfer : ∀ id, transferId = some id → (∃ t ∈ db.transfers, t.id = id) ∧
    ∀ j ∈ db.ledgerJournals, ¬ (j.transferId = some id ∧ j.journalType = journalType)
  seed : journalType = .seed ↔ transferId = none
  covered : ∀ a ∈ db.accounts, a.ownerType = .user → 0 ≤ a.balance + netChange postings a.id

section

variable {db db' : Database} {journalType : JournalType} {postings postings' : List Posting}
  {transferId : Option String}

/-- The net of a program is its credits less its debits. -/
theorem total_eq_postedIn (postings : List Posting) (programId : Nat) :
    Tally.total Posting.programId Posting.signedAmount postings programId =
      postedIn .credit programId postings - postedIn .debit programId postings := by
  induction postings with
  | nil => rfl
  | cons p postings ih =>
      rw [Tally.total_cons, ih]
      by_cases hp : p.programId = programId
      · cases hd : p.direction <;>
          simp only [postedIn, List.filter_cons, hp, hd, Posting.signedAmount, and_true,
            reduceCtorEq, decide_true, decide_false, if_true, if_false, Bool.false_eq_true,
            List.map_cons, List.sum_cons] <;> ring
      · simp [postedIn, hp]

/-- The conditions in the ledger's own words. -/
theorem acceptable_iff (hdb : db.Constrained) :
    Acceptable db journalType postings transferId ↔
      Lawful db journalType postings transferId := by
  constructor
  · intro h
    refine ⟨?_, ?_, ?_, ?_, ?_, fun a ha hu _ => h.covered a ha hu⟩
    · refine validateJournal_ok.mpr ⟨h.two, h.positive, fun p _ => ?_⟩
      rw [total_eq_postedIn, h.balanced, sub_self]
    · cases hid : transferId with
      | none => simp [h.seed, hid]
      | some id => simp [h.seed, hid]
    · intro hsome j hj
      obtain ⟨id, hid⟩ := Option.isSome_iff_exists.mp hsome
      rw [hid]
      exact (h.transfer id hid).2 j hj
    · intro id hid
      exact (h.transfer id hid).1
    · intro p hp
      obtain ⟨a, ha, hfound⟩ := h.accounts p hp
      exact List.any_eq_true.mpr ⟨a, ha, decide_eq_true hfound⟩
  · intro h
    obtain ⟨htwo, hpos, -⟩ := validateJournal_ok.mp h.valid
    refine ⟨htwo, hpos, ?_, ?_, ?_, ?_, ?_⟩
    · intro programId
      have hnet := valid_total h.valid programId
      rw [total_eq_postedIn] at hnet
      omega
    · intro p hp
      obtain ⟨a, ha, hfound⟩ := List.any_eq_true.mp (h.accounts p hp)
      exact ⟨a, ha, of_decide_eq_true hfound⟩
    · rintro id rfl
      exact ⟨h.transfer id rfl, h.fresh rfl⟩
    · have hlink := h.link
      cases hid : transferId <;> simpa [hid] using hlink
    · intro a ha hu
      by_cases hzero : netChange postings a.id = 0
      · rw [hzero, add_zero]
        exact hdb.userBalances a ha hu
      · exact h.covered a ha hu hzero

/-- The new journal's entries are its postings. -/
theorem journalEntries_new (hdb : db.Constrained) (programId : Nat) :
    (posted db journalType postings transferId).journalEntries
      (newJournal db journalType transferId).id programId =
        (postings.filter fun p => decide (p.programId = programId)).map
          (Posting.entry (newJournal db journalType transferId).id) := by
  have hnone : db.journalEntries (newJournal db journalType transferId).id programId = [] := by
    rw [Database.journalEntries, List.filter_eq_nil_iff]
    intro e he hof
    obtain ⟨j, hj, hid⟩ := hdb.entryJournals e he
    exact Table.key_ne_nextId hj (hid.trans (of_decide_eq_true hof).1)
  rw [posted_journalEntries, hnone, if_pos (by rfl), List.nil_append]

theorem amountIn_entries (direction : EntryDirection) (journalId programId : Nat) :
    amountIn direction ((postings.filter fun p => decide (p.programId = programId)).map
      (Posting.entry journalId)) = postedIn direction programId postings := by
  simp only [amountIn, postedIn, List.filter_map, List.filter_filter, List.map_map]
  congr 2
  refine List.filter_congr fun p _ => ?_
  rw [Bool.decide_and]
  rfl

/-- The trigger finds nothing in a journal that got as far as COMMIT. -/
theorem journal_trigger_passes (hdb : db.Constrained)
    (h : Lawful db journalType postings transferId) :
    ((posted db journalType postings transferId).ledgerEntries.drop db.ledgerEntries.length).forM
      (posted db journalType postings transferId).checkLedgerJournalBalanced = .ok () := by
  have hnew : (posted db journalType postings transferId).ledgerEntries.drop
      db.ledgerEntries.length =
        postings.map (Posting.entry (newJournal db journalType transferId).id) := by
    simp [posted]
  rw [hnew]
  refine forM_ok fun e he => checkLedgerJournalBalanced_ok.mpr ?_
  obtain ⟨p, -, rfl⟩ := List.mem_map.mp he
  intro x _ _
  have hentries : (posted db journalType postings transferId).journalEntries
      (newJournal db journalType transferId).id x.programId = _ :=
    journalEntries_new hdb x.programId
  simp only [Posting.entry] at hentries ⊢
  rw [hentries]
  have hbalanced := ((acceptable_iff hdb).mpr h).balanced x.programId
  rw [← amountIn_entries .debit (newJournal db journalType transferId).id,
    ← amountIn_entries .credit (newJournal db journalType transferId).id] at hbalanced
  exact hbalanced

/-- How the transaction ends. -/
theorem unitOfWork_postJournal (hdb : db.Constrained) (hrange : InRange db postings)
    (journalType : JournalType) (transferId : Option String) :
    (Acceptable db journalType postings transferId ∧
      unitOfWork (postJournal journalType postings transferId) db =
        (.ok (newJournal db journalType transferId),
          posted db journalType postings transferId)) ∨
    (¬ Acceptable db journalType postings transferId ∧
      ∃ fault, unitOfWork (postJournal journalType postings transferId) db =
        (.error (.raised fault), db)) := by
  rw [acceptable_iff hdb]
  cases hrun : (postJournal journalType postings transferId).run db with
  | ok result =>
      obtain ⟨hpostable, hj, hdb'⟩ := postJournal_ok.mp hrun
      refine .inl ⟨hpostable.toLawful, ?_⟩
      simp only [unitOfWork, hrun, hdb', journal_trigger_passes hdb hpostable.toLawful, hj]
  | error fault =>
      refine .inr ⟨?_, fault, by simp only [unitOfWork, hrun]⟩
      intro hlawful
      have hok := postJournal_ok.mpr ⟨⟨hlawful, hrange⟩, rfl, rfl⟩
      cases hrun.symm.trans hok

/-! ## The order of the postings -/

theorem netChange_perm (h : postings.Perm postings') :
    netChange postings = netChange postings' := by
  funext accountId
  exact ((h.filter _).map _).sum_eq

theorem postedIn_perm (h : postings.Perm postings') (direction : EntryDirection)
    (programId : Nat) :
    postedIn direction programId postings = postedIn direction programId postings' :=
  ((h.filter _).map _).sum_eq

theorem InRange.perm (hp : postings.Perm postings') (h : InRange db postings) :
    InRange db postings' where
  amounts p hmem := h.amounts p (hp.mem_iff.mpr hmem)
  changes p hmem := by
    rw [← netChange_perm hp]
    exact h.changes p (hp.mem_iff.mpr hmem)
  balances := by
    rw [← netChange_perm hp]
    exact h.balances

theorem Acceptable.perm (hp : postings.Perm postings')
    (h : Acceptable db journalType postings transferId) :
    Acceptable db journalType postings' transferId where
  two := h.two.trans_eq hp.length_eq
  positive p hmem := h.positive p (hp.mem_iff.mpr hmem)
  balanced programId := by
    rw [← postedIn_perm hp, ← postedIn_perm hp, h.balanced]
  accounts p hmem := h.accounts p (hp.mem_iff.mpr hmem)
  transfer := h.transfer
  seed := h.seed
  covered := by
    rw [← netChange_perm hp]
    exact h.covered

/-- The accounts after the transaction: moved by the journal, or as they were. -/
theorem unitOfWork_accounts (hdb : db.Constrained) (hrange : InRange db postings)
    (journalType : JournalType) (transferId : Option String) :
    (Acceptable db journalType postings transferId →
      (unitOfWork (postJournal journalType postings transferId) db).2.accounts =
        shiftBalances (netChange postings) db.accounts) ∧
    (¬ Acceptable db journalType postings transferId →
      (unitOfWork (postJournal journalType postings transferId) db).2 = db) := by
  rcases unitOfWork_postJournal hdb hrange journalType transferId with
    ⟨hyes, hend⟩ | ⟨hno, fault, hend⟩
  · exact ⟨fun _ => by rw [hend]; rfl, fun hno => absurd hyes hno⟩
  · exact ⟨fun hyes => absurd hyes hno, fun _ => by rw [hend]⟩

/-- It commits exactly when the journal is acceptable. -/
theorem unitOfWork_commits_iff (hdb : db.Constrained) (hrange : InRange db postings)
    (journalType : JournalType) (transferId : Option String) :
    (∃ journal db', unitOfWork (postJournal journalType postings transferId) db =
      (.ok journal, db')) ↔ Acceptable db journalType postings transferId := by
  rcases unitOfWork_postJournal hdb hrange journalType transferId with
    ⟨hyes, hend⟩ | ⟨hno, fault, hend⟩
  · exact ⟨fun _ => hyes, fun _ => ⟨_, _, hend⟩⟩
  · refine ⟨?_, fun hyes => absurd hyes hno⟩
    rintro ⟨journal, db', hok⟩
    cases hend.symm.trans hok

/-- `post_journal` in a `unit_of_work`, over every database that satisfies the
constraints, for amounts that stay in the range of `BIGINT`: when it commits, what it
then does to the balances, that otherwise it does nothing, and that the order of the
postings decides neither. -/
theorem post_journal_unit_of_work (hdb : db.Constrained) (journalType : JournalType)
    (postings : List Posting) (transferId : Option String) (hrange : InRange db postings) :
    ((∃ journal db', unitOfWork (postJournal journalType postings transferId) db =
        (.ok journal, db')) ↔ Acceptable db journalType postings transferId) ∧
    (∀ journal db', unitOfWork (postJournal journalType postings transferId) db =
        (.ok journal, db') →
      db'.accounts = (db.accounts.map fun a => { a with balance := a.balance +
        ((postings.filter fun p => decide (p.accountId = a.id)).map Posting.signedAmount).sum }) ∧
      ∀ a ∈ db.accounts, (∀ p ∈ postings, p.accountId ≠ a.id) → a ∈ db'.accounts) ∧
    (∀ fault db', unitOfWork (postJournal journalType postings transferId) db =
        (.error fault, db') → db' = db) ∧
    (∀ postings', postings.Perm postings' →
      ((∃ journal db', unitOfWork (postJournal journalType postings transferId) db =
          (.ok journal, db')) ↔
        ∃ journal db', unitOfWork (postJournal journalType postings' transferId) db =
          (.ok journal, db')) ∧
      (unitOfWork (postJournal journalType postings transferId) db).2.accounts =
        (unitOfWork (postJournal journalType postings' transferId) db).2.accounts) := by
  have hcommits := unitOfWork_commits_iff hdb hrange journalType transferId
  refine ⟨hcommits, ?_, ?_, ?_⟩
  · intro journal db' hok
    have hyes := hcommits.mp ⟨journal, db', hok⟩
    have haccounts := (unitOfWork_accounts hdb hrange journalType transferId).1 hyes
    rw [hok] at haccounts
    refine ⟨haccounts, ?_⟩
    intro a ha hnone
    have hzero : netChange postings a.id = 0 := Tally.total_of_not_mem hnone
    rw [haccounts]
    exact List.mem_map.mpr ⟨a, ha, by rw [hzero, add_zero]⟩
  · intro fault db' hfail
    rcases unitOfWork_postJournal hdb hrange journalType transferId with
      ⟨-, hend⟩ | ⟨-, fault', hend⟩
    · cases hend.symm.trans hfail
    · cases hend.symm.trans hfail
      rfl
  · intro postings' hp
    have hrange' := hrange.perm hp
    have hsame : Acceptable db journalType postings transferId ↔
        Acceptable db journalType postings' transferId := ⟨.perm hp, .perm hp.symm⟩
    refine ⟨by rw [hcommits, unitOfWork_commits_iff hdb hrange', hsame], ?_⟩
    obtain ⟨hyes, hno⟩ := unitOfWork_accounts hdb hrange journalType transferId
    obtain ⟨hyes', hno'⟩ := unitOfWork_accounts hdb hrange' journalType transferId
    by_cases h : Acceptable db journalType postings transferId
    · rw [hyes h, hyes' (hsame.mp h), netChange_perm hp]
    · rw [hno h, hno' fun h' => h (hsame.mpr h')]

end

/-- A debit the user could not pay for, and a larger credit after it. -/
def netPostings : List Posting :=
  [⟨2, 1, .debit, 500⟩, ⟨2, 1, .credit, 600⟩, ⟨1, 1, .debit, 100⟩]

theorem post_journal_unit_of_work_netPostings :
    ∃ journal db', unitOfWork (postJournal .seed netPostings none) unbooked =
      (.ok journal, db') := by
  have hdb : unbooked.Constrained := ⟨by decide, by decide⟩
  have hrange : InRange unbooked netPostings := ⟨by decide, by decide, by decide⟩
  refine (post_journal_unit_of_work hdb .seed netPostings none hrange).1.mpr ?_
  refine ⟨by decide, by decide, ?_, by decide, by simp, by decide, by decide⟩
  intro programId
  by_cases h : programId = 1
  · rw [h]
    decide
  · simp [postedIn, netPostings, Ne.symm h]

end LoyaltyTransfer
