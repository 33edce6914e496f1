/-
# `LoyaltyTransfer.JournalChecks` — three checks of one journal

Debits equal credits in each program: written three times.

| | |
| :-- | :-- |
| `validate_journal` | a dictionary of signed nets, before anything is written |
| `check_ledger_journal_balanced` | a trigger on `ledger_entries` at COMMIT, sums of a CASE |
| `journals_balanced_per_program` | the report's query, filtered sums |

**Proved here.**  Of a journal with at least two postings, all positive, whose
entries are in the table, in any order, the three say the same
(`journal_checks_agree`): each asks whether the signed amounts of the journal in a
program add up to zero.
-/
import LoyaltyTransfer.Journals

namespace LoyaltyTransfer

open Transaction

/-! ## One sum behind the three -/

section

variable {db : Database} {journalId programId : Nat} {postings : List Posting}

/-- Debits equal credits when the signed amounts add up to zero. -/
theorem amountIn_eq_iff (entries : List LedgerEntry) :
    amountIn .debit entries = amountIn .credit entries ↔
      (entries.map LedgerEntry.signedAmount).sum = 0 := by
  rw [sum_signedAmount]
  omega

/-- The journal's entries are those of the postings, in any order. -/
def Database.HoldsJournal (db : Database) (journalId : Nat) (postings : List Posting) : Prop :=
  (db.ledgerEntries.filter fun e => decide (e.journalId = journalId)).Perm
    (postings.map (Posting.entry journalId))

theorem journalEntries_filter (db : Database) (journalId programId : Nat) :
    db.journalEntries journalId programId =
      (db.ledgerEntries.filter fun e => decide (e.journalId = journalId)).filter
        fun e => decide (e.programId = programId) := by
  rw [Database.journalEntries, List.filter_filter]
  refine List.filter_congr fun e _ => ?_
  rw [← Bool.decide_and]
  exact decide_eq_decide.mpr and_comm

/-- In the table a program's share of the journal adds up to what the dictionary
holds for it. -/
theorem Database.HoldsJournal.sum_signedAmount (h : db.HoldsJournal journalId postings) :
    ((db.journalEntries journalId programId).map LedgerEntry.signedAmount).sum =
      Tally.total Posting.programId Posting.signedAmount postings programId := by
  rw [journalEntries_filter, ((h.filter _).map _).sum_eq, Tally.total, List.filter_map,
    List.map_map]
  rfl

theorem Database.HoldsJournal.mem_programs (h : db.HoldsJournal journalId postings) :
    (∃ e ∈ db.ledgerEntries, e.journalId = journalId ∧ e.programId = programId) ↔
      ∃ p ∈ postings, p.programId = programId := by
  constructor
  · rintro ⟨e, he, hj, hk⟩
    obtain ⟨p, hp, rfl⟩ := List.mem_map.mp
      (h.subset (List.mem_filter.mpr ⟨he, decide_eq_true hj⟩))
    exact ⟨p, hp, hk⟩
  · rintro ⟨p, hp, hk⟩
    obtain ⟨he, hj⟩ := List.mem_filter.mp (h.symm.subset (List.mem_map_of_mem hp))
    exact ⟨_, he, of_decide_eq_true hj, hk⟩

/-- So does the trigger, in its sums of a CASE. -/
theorem checkLedgerJournalBalanced_iff {e : LedgerEntry} :
    db.checkLedgerJournalBalanced e = .ok () ↔
      ∀ x ∈ db.ledgerEntries, x.journalId = e.journalId →
        ((db.journalEntries e.journalId x.programId).map LedgerEntry.signedAmount).sum = 0 := by
  simp only [checkLedgerJournalBalanced_ok, amountIn_eq_iff]

/-- The report has no row for the journal when no program's share of it is off. -/
theorem journalsBalancedPerProgram_none :
    (∀ row ∈ journalsBalancedPerProgram db, ("journal_id", Json.Value.int journalId) ∉ row) ↔
      ∀ x ∈ db.ledgerEntries, x.journalId = journalId →
        ((db.journalEntries journalId x.programId).map LedgerEntry.signedAmount).sum = 0 := by
  simp only [← amountIn_eq_iff]
  constructor
  · intro h x hx hj
    by_contra hoff
    refine h _ (List.mem_filterMap.mpr ⟨(journalId, x.programId), ?_, if_pos hoff⟩) (by simp)
    exact List.mem_dedup.mpr (List.mem_map.mpr ⟨x, hx, by rw [hj]⟩)
  · intro h row hrow hmem
    obtain ⟨g, hg, hoff⟩ := List.mem_filterMap.mp hrow
    obtain ⟨x, hx, rfl⟩ := List.mem_map.mp (List.mem_dedup.mp hg)
    simp only at hoff
    split at hoff
    · rename_i hne
      cases hoff
      have hj : x.journalId = journalId := by simpa [eq_comm] using hmem
      rw [hj] at hne
      exact hne (h x hx hj)
    · cases hoff

end

/-- The three checks of a journal agree, whatever its postings and whatever else
the table holds. -/
theorem journal_checks_agree (db : Database) (journalId : Nat) (postings : List Posting)
    (htwo : 2 ≤ postings.length) (hpositive : ∀ p ∈ postings, 0 < p.amount)
    (hrows : db.HoldsJournal journalId postings) :
    (validateJournal postings = .ok () ↔
      ∀ e ∈ db.ledgerEntries, e.journalId = journalId →
        db.checkLedgerJournalBalanced e = .ok ()) ∧
    (validateJournal postings = .ok () ↔
      ∀ row ∈ journalsBalancedPerProgram db, ("journal_id", Json.Value.int journalId) ∉ row) := by
  have hvalid : validateJournal postings = .ok () ↔
      ∀ x ∈ db.ledgerEntries, x.journalId = journalId →
        ((db.journalEntries journalId x.programId).map LedgerEntry.signedAmount).sum = 0 := by
    rw [validateJournal_ok]
    constructor
    · rintro ⟨-, -, hnet⟩ x hx hj
      obtain ⟨p, hp, hk⟩ := hrows.mem_programs.mp ⟨x, hx, hj, rfl⟩
      rw [hrows.sum_signedAmount, ← hk]
      exact hnet p hp
    · intro h
      refine ⟨htwo, hpositive, ?_⟩
      intro p hp
      obtain ⟨x, hx, hj, hk⟩ := hrows.mem_programs.mpr ⟨p, hp, rfl⟩
      rw [← hrows.sum_signedAmount, ← hk]
      exact h x hx hj
  constructor
  · rw [hvalid]
    constructor
    · intro h e _ he
      rw [checkLedgerJournalBalanced_iff, he]
      exact h
    · intro h x hx hj
      have hraised := checkLedgerJournalBalanced_iff.mp (h x hx hj) x hx rfl
      rw [hj] at hraised
      exact hraised
  · rw [hvalid, journalsBalancedPerProgram_none]

/-- Ten points out of program 1 and nine into program 2: off in both. -/
def lopsided : List Posting := [⟨1, 1, .debit, 10⟩, ⟨2, 2, .credit, 9⟩]

/-- The three reject it, in the middle of another journal's entries. -/
theorem journal_checks_agree_lopsided :
    ∃ db : Database, db.HoldsJournal 7 lopsided ∧
      ¬ ∀ row ∈ journalsBalancedPerProgram db, ("journal_id", Json.Value.int 7) ∉ row := by
  let db : Database := ⟨[], [], [], [], [], [], [], [],
    [⟨7, 2, 2, .credit, 9⟩, ⟨8, 1, 1, .debit, 5⟩, ⟨7, 1, 1, .debit, 10⟩], .blank, 0⟩
  have hrows : db.HoldsJournal 7 lopsided := List.Perm.swap _ _ _
  refine ⟨db, hrows, ?_⟩
  intro hreport
  have hagree := journal_checks_agree db 7 lopsided (by decide) (by decide) hrows
  have hvalid := hagree.2.mpr hreport
  exact absurd (valid_total hvalid 1) (by decide)

end LoyaltyTransfer
