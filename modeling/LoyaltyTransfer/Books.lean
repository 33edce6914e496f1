/-
# `LoyaltyTransfer.Books` — the books of a running system

`make check-invariants` (`scripts/check_invariants.py`) runs the report of
`LedgerInvariants` against a live database.  There one journal at a time was
followed; here the transactions of the whole service are.

**Proved here.**

    the report is empty  ⟺  the books are right             (`report_complete`)
    every change keeps the books, so the report stays empty
    in every reachable state                                 (`report_stays_empty`)
    journals, entries and events are only ever added, and
    the balances move by the added entries                   (`history_append_only`)
-/
import LoyaltyTransfer.LedgerInvariants
import LoyaltyTransfer.Ownership

namespace LoyaltyTransfer

open Transaction

/-! ## The report misses nothing -/

section

variable {db db' : Database}

/-- The rows of one program carry its code. -/
theorem programRows_total (p : Program) (code : String) :
    Tally.total Prod.fst Prod.snd
      ((db.accounts.filter fun a => decide (a.programId = p.id)).map fun a => (p.code, a.balance))
      code = if p.code = code then db.programTotal p.id else 0 := by
  rw [Tally.total_map]
  by_cases hcode : p.code = code
  · simp only [Tally.total, hcode, decide_true, List.filter_true, if_true]
    rfl
  · rw [if_neg hcode]
    exact Tally.total_of_not_mem fun _ _ => hcode

/-- The codes are unique, so grouping by code adds up one program. -/
theorem programBalances_complete (hcodes : (db.programs.map Program.code).Nodup)
    (h : programBalancesSumToZero db = []) {p : Program} (hp : p ∈ db.programs) :
    db.programTotal p.id = 0 := by
  simp only [programBalancesSumToZero, List.map_eq_nil_iff, List.filter_eq_nil_iff] at h
  by_cases hrows : ∃ a ∈ db.accounts, a.programId = p.id
  · obtain ⟨a, ha, hap⟩ := hrows
    have hrow : (p.code, a.balance) ∈ db.programs.flatMap fun q =>
        (db.accounts.filter fun a => decide (a.programId = q.id)).map fun a =>
          (q.code, a.balance) := by
      refine List.mem_flatMap.mpr ⟨p, hp, List.mem_map.mpr ⟨a, ?_, rfl⟩⟩
      exact List.mem_filter.mpr ⟨ha, decide_eq_true hap⟩
    have hgroup := h _ (Tally.mem_tally.mpr ⟨⟨_, hrow, rfl⟩, rfl⟩)
    rw [decide_eq_true_eq, not_not, Tally.total_flatMap] at hgroup
    simp only [programRows_total] at hgroup
    rw [sum_map_ite, Table.filter_key hcodes hp] at hgroup
    simpa using hgroup
  · exact Tally.total_of_not_mem fun a ha hap => hrows ⟨a, ha, hap⟩

theorem journalsBalanced_complete (h : journalsBalancedPerProgram db = [])
    (journalId programId : Nat) :
    ((db.journalEntries journalId programId).map LedgerEntry.signedAmount).sum = 0 := by
  simp only [journalsBalancedPerProgram, List.filterMap_eq_nil_iff] at h
  by_cases hgroup : (journalId, programId) ∈ (db.ledgerEntries.map fun e =>
      (e.journalId, e.programId)).dedup
  · have hbalanced := h _ hgroup
    rw [ite_eq_right_iff] at hbalanced
    rw [sum_signedAmount]
    by_contra hne
    cases hbalanced fun heq => hne (sub_eq_zero.mpr heq.symm)
  · have hnone : db.journalEntries journalId programId = [] := by
      refine List.filter_eq_nil_iff.mpr ?_
      intro e he hof
      obtain ⟨rfl, rfl⟩ := of_decide_eq_true hof
      exact hgroup (List.mem_dedup.mpr (List.mem_map_of_mem he))
    rw [hnone]
    rfl

theorem findViolations_nil :
    findViolations db = [] ↔ programBalancesSumToZero db = [] ∧
      journalsBalancedPerProgram db = [] ∧ accountBalanceMatchesEntries db = [] ∧
      userBalancesNonNegative db = [] := by
  simp [findViolations, invariants]

/-- Over unique program codes and existing programs, an empty report means that
the books are right, and wrong books are reported. -/
theorem report_complete (haccounts : (db.accounts.map Account.id).Nodup)
    (hcodes : (db.programs.map Program.code).Nodup)
    (hprograms : ∀ a ∈ db.accounts, ∃ p ∈ db.programs, p.id = a.programId) :
    findViolations db = [] ↔ Booked db := by
  constructor
  · intro h
    obtain ⟨hsums, hjournals, hbalances, husers⟩ := findViolations_nil.mp h
    refine ⟨haccounts, ?_, ?_, journalsBalanced_complete hjournals, ?_⟩
    · intro a ha
      have hrow := List.filterMap_eq_nil_iff.mp hbalances a ha
      rw [ite_eq_right_iff] at hrow
      by_contra hne
      cases hrow hne
    · intro programId
      by_cases hany : ∃ a ∈ db.accounts, a.programId = programId
      · obtain ⟨a, ha, rfl⟩ := hany
        obtain ⟨p, hp, hid⟩ := hprograms a ha
        rw [← hid]
        exact programBalances_complete hcodes hsums hp
      · exact Tally.total_of_not_mem fun a ha hap => hany ⟨a, ha, hap⟩
    · intro a ha hu
      simp only [userBalancesNonNegative, List.map_eq_nil_iff, List.filter_eq_nil_iff] at husers
      have hrow := husers a ha
      simp only [decide_eq_true_eq, not_and, not_lt] at hrow
      exact hrow hu
  · exact Booked.noViolations

/-! ## Every change keeps the books -/

/-- The books are in two tables. -/
theorem Booked.congr (h : Booked db) (haccounts : db'.accounts = db.accounts)
    (hentries : db'.ledgerEntries = db.ledgerEntries) : Booked db' where
  accountIds := by rw [haccounts]; exact h.accountIds
  balances := by
    simp only [haccounts, Database.ledgerBalance, hentries]
    exact h.balances
  programs := by
    simp only [Database.programTotal, haccounts]
    exact h.programs
  journals := by
    simp only [Database.journalEntries, hentries]
    exact h.journals
  users := by rw [haccounts]; exact h.users

variable {db₀ : Database} {c : Cause}

theorem Booked.change (h : Booked db) (hs : Seeded db₀) (hsound : Sound db₀ db)
    (hc : Change c db db') : Booked db' := by
  cases hc with
  | frame hf => exact h.congr hf.accounts hf.ledgerEntries
  | @opened t source _ clearing _ events _ ho =>
      -- the journal is posted over the inserted row
      have hbooked : Booked { db with transfers := db.transfers ++ [t] } := h.congr rfl rfl
      have hlawful := ho.lawful hsound hs { db with transfers := db.transfers ++ [t] } rfl rfl
        ⟨t, List.mem_append_right _ (List.mem_singleton_self t), rfl⟩
      exact (hbooked.post hlawful).congr rfl rfl
  | submitted => exact h.congr rfl rfl
  | parked => exact h.congr rfl rfl
  | settled events ht hst _ hof =>
      have hheld := held_of_verifiable hst
      exact (h.post (hsound.settle_lawful hs ht hheld hof)).congr rfl rfl
  | reversed events ht hbecause hclr hsrc =>
      exact (h.post (hsound.reverse_lawful hs ht hbecause.held hclr hsrc)).congr rfl rfl
  | leased => exact h.congr rfl rfl

end

/-! ## What a change adds -/

/-- `db'` continues the history of `db`: nothing written is changed or taken
away, a new entry belongs to a new journal, and the balances move by the new
entries. -/
structure Continues (db db' : Database) (js : List LedgerJournal) (es : List LedgerEntry)
    (evs : List TransferEvent) : Prop where
  journals : db'.ledgerJournals = db.ledgerJournals ++ js
  entries : db'.ledgerEntries = db.ledgerEntries ++ es
  events : db'.transferEvents = db.transferEvents ++ evs
  fresh : ∀ e ∈ es, ∀ j ∈ db.ledgerJournals, j.id ≠ e.journalId
  accounts : db'.accounts = db.accounts.map fun a => { a with
    balance := a.balance + Tally.total LedgerEntry.accountId LedgerEntry.signedAmount es a.id }
  ids : db.transfers.map Transfer.id <+: db'.transfers.map Transfer.id

section

variable {db db' db'' : Database} {js js' : List LedgerJournal} {es es' : List LedgerEntry}
  {evs evs' : List TransferEvent}

theorem Continues.refl (db : Database) : Continues db db [] [] [] :=
  ⟨by simp, by simp, by simp, by simp, by simp, List.prefix_rfl⟩

theorem Continues.trans (h : Continues db db' js es evs) (h' : Continues db' db'' js' es' evs') :
    Continues db db'' (js ++ js') (es ++ es') (evs ++ evs') where
  journals := by rw [h'.journals, h.journals, List.append_assoc]
  entries := by rw [h'.entries, h.entries, List.append_assoc]
  events := by rw [h'.events, h.events, List.append_assoc]
  fresh := by
    intro e he
    rcases List.mem_append.mp he with he | he
    · exact h.fresh e he
    · intro j hj
      refine h'.fresh e he j ?_
      rw [h.journals]
      exact List.mem_append_left _ hj
  accounts := by
    rw [h'.accounts, h.accounts, List.map_map]
    refine List.map_congr_left fun a _ => ?_
    simp [Tally.total_append, add_assoc]
  ids := h.ids.trans h'.ids

/-- A change of tables outside the ledger. -/
theorem continues_of_eq (haccounts : db'.accounts = db.accounts)
    (hjournals : db'.ledgerJournals = db.ledgerJournals)
    (hentries : db'.ledgerEntries = db.ledgerEntries)
    (hevents : db'.transferEvents = db.transferEvents ++ evs)
    (hids : db.transfers.map Transfer.id <+: db'.transfers.map Transfer.id) :
    Continues db db' [] [] evs :=
  ⟨by simp [hjournals], by simp [hentries], hevents, by simp, by simp [haccounts], hids⟩

theorem continues_posted (journalType : JournalType) (postings : List Posting)
    (transferId : Option String) :
    Continues db (posted db journalType postings transferId)
      [newJournal db journalType transferId]
      (postings.map (Posting.entry (newJournal db journalType transferId).id)) [] where
  journals := rfl
  entries := rfl
  events := by simp [posted]
  fresh := by
    intro e he j hj
    obtain ⟨p, -, rfl⟩ := List.mem_map.mp he
    exact Table.key_ne_nextId hj
  accounts := by
    refine List.map_congr_left fun a _ => ?_
    rw [Tally.total_map]
    rfl
  ids := List.prefix_rfl

theorem Change.continues {c : Cause} (h : Change c db db') :
    ∃ js es evs, Continues db db' js es evs := by
  have hkept : ∀ t : Transfer, db.transfers.map Transfer.id <+:
      (Table.replace Transfer.id t db.transfers).map Transfer.id := by
    intro t
    rw [Table.map_key_replace]
  cases h with
  | frame hf =>
      refine ⟨_, _, [], continues_of_eq hf.accounts hf.ledgerJournals hf.ledgerEntries ?_ ?_⟩
      · rw [hf.transferEvents, List.append_nil]
      · rw [hf.transfers]
  | @opened t source _ clearing _ events _ ho =>
      have hposted : Continues db _ _ _ _ := continues_posted .transferDebit
        (debitPostings source clearing t.sourcePoints) (some t.id)
      refine ⟨_, _, _, hposted.trans (continues_of_eq rfl rfl rfl rfl ?_)⟩
      show _ <+: (db.transfers ++ [t]).map Transfer.id
      rw [List.map_append]
      exact List.prefix_append _ _
  | submitted => exact ⟨_, _, _, continues_of_eq rfl rfl rfl rfl (hkept _)⟩
  | parked => exact ⟨_, _, _, continues_of_eq rfl rfl rfl rfl (hkept _)⟩
  | settled =>
      exact ⟨_, _, _, (continues_posted _ _ _).trans (continues_of_eq rfl rfl rfl rfl (hkept _))⟩
  | reversed =>
      exact ⟨_, _, _, (continues_posted _ _ _).trans (continues_of_eq rfl rfl rfl rfl (hkept _))⟩
  | leased claimed expiry =>
      refine ⟨_, _, [], continues_of_eq rfl rfl rfl (List.append_nil _).symm ?_⟩
      have hids : (LoyaltyTransfer.leased claimed expiry db).transfers.map Transfer.id =
          db.transfers.map Transfer.id := by
        rw [LoyaltyTransfer.leased, List.map_map]
        refine List.map_congr_left fun t _ => ?_
        by_cases hc : t.id ∈ claimed <;> simp [hc]
      rw [hids]

end

/-! ## Along a run -/

section

variable {cfg : Config} {s₀ s s' : State} {as bs : List Action}

theorem run_booked (h₀ : Initial s₀) (hbooks : Booked s₀.store.db)
    (h : Runs.run (step cfg) s₀ as = some s) : Booked s.store.db := by
  have hI := Runs.run_invariant
    (I := fun s => Sound s₀.store.db s.store.db ∧ Booked s.store.db)
    (fun s a s' hI hstep => ?_) ⟨h₀.seeded.sound, hbooks⟩ h
  · exact hI.2
  · obtain ⟨hsound, hbooked⟩ := hI
    have hc := (step_inv hstep).change (hsound.accountIds h₀.seeded)
    exact ⟨hsound.change h₀.seeded hc, hbooked.change h₀.seeded hsound hc⟩

/-- What a run from any state with unique account ids and a sound ledger adds. -/
theorem run_continues {db₀ : Database} (hs : Seeded db₀) (hsound : Sound db₀ s.store.db)
    (h : Runs.run (step cfg) s bs = some s') :
    ∃ js es evs, Continues s.store.db s'.store.db js es evs := by
  have hI := Runs.run_invariant
    (I := fun x => Sound db₀ x.store.db ∧
      ∃ js es evs, Continues s.store.db x.store.db js es evs)
    (fun x a x' hI hstep => ?_) ⟨hsound, _, _, _, Continues.refl s.store.db⟩ h
  · exact hI.2
  · obtain ⟨hx, _, _, _, hcont⟩ := hI
    have hc := (step_inv hstep).change (hx.accountIds hs)
    obtain ⟨_, _, _, hnext⟩ := hc.continues
    exact ⟨hx.change hs hc, _, _, _, hcont.trans hnext⟩

/-- Started with books in order, the report finds nothing in any reachable state:
each program's balances add up to zero, every journal balances in every program,
every balance is its CREDITs less its DEBITs, and no user is below zero. -/
theorem report_stays_empty (h₀ : Initial s₀) (hbooks : findViolations s₀.store.db = [])
    (hprograms : ∀ a ∈ s₀.store.db.accounts, ∃ p ∈ s₀.store.db.programs, p.id = a.programId)
    (h : Runs.run (step cfg) s₀ as = some s) :
    findViolations s.store.db = [] ∧
      (∀ programId, (((s.store.db.accounts.filter fun a =>
        decide (a.programId = programId)).map Account.balance).sum = 0)) ∧
      ∀ journalId programId,
        amountIn .debit (s.store.db.journalEntries journalId programId) =
          amountIn .credit (s.store.db.journalEntries journalId programId) := by
  have hbooked := run_booked h₀ ((report_complete h₀.seeded.accountIds h₀.seeded.programCodes
    hprograms).mp hbooks) h
  refine ⟨hbooked.noViolations, hbooked.programs, ?_⟩
  intro journalId programId
  have hnet := hbooked.journals journalId programId
  rw [sum_signedAmount] at hnet
  omega

/-- Whatever runs on from a reachable state, its journals, entries and audit
events stay as they are, with the new ones after them; no new entry belongs to an
earlier journal, so each journal keeps its entries; each balance moves by exactly
the new entries of its account; and every transfer stays, with its terms. -/
theorem history_append_only (h₀ : Initial s₀) (h : Runs.run (step cfg) s₀ as = some s)
    (h' : Runs.run (step cfg) s bs = some s') :
    (∃ js es evs, s'.store.db.ledgerJournals = s.store.db.ledgerJournals ++ js ∧
      s'.store.db.ledgerEntries = s.store.db.ledgerEntries ++ es ∧
      s'.store.db.transferEvents = s.store.db.transferEvents ++ evs ∧
      s'.store.db.accounts = s.store.db.accounts.map fun a => { a with
        balance := a.balance +
          (amountIn .credit (es.filter fun e => decide (e.accountId = a.id)) -
            amountIn .debit (es.filter fun e => decide (e.accountId = a.id))) }) ∧
    (∀ j ∈ s.store.db.ledgerJournals, ∀ programId,
      s'.store.db.journalEntries j.id programId = s.store.db.journalEntries j.id programId) ∧
    s.store.db.transfers.map Transfer.id <+: s'.store.db.transfers.map Transfer.id ∧
    ∀ t ∈ s.store.db.transfers, ∃ t' ∈ s'.store.db.transfers, SameTerms t t' := by
  have hsound := run_sound h₀ h
  obtain ⟨js, es, evs, hcont⟩ := run_continues h₀.seeded hsound h'
  refine ⟨⟨js, es, evs, hcont.journals, hcont.entries, hcont.events, ?_⟩, ?_, hcont.ids, ?_⟩
  · rw [hcont.accounts]
    refine List.map_congr_left fun a _ => ?_
    rw [← sum_signedAmount]
    rfl
  · intro j hj programId
    have hnone : es.filter (fun e => decide (e.journalId = j.id ∧
        e.programId = programId)) = [] := by
      refine List.filter_eq_nil_iff.mpr ?_
      intro e he hof
      exact hcont.fresh e he j hj (of_decide_eq_true hof).1.symm
    rw [Database.journalEntries, hcont.entries, List.filter_append, hnone, List.append_nil]
    rfl
  · intro t ht
    obtain ⟨t', ht', hterms, -⟩ := run_transfer h₀ h h' (Table.lookup_of_mem hsound.transferIds ht)
    exact ⟨t', Table.lookup_mem ht', hterms⟩

end

theorem seedDb_report : findViolations seedDb = [] :=
  List.isEmpty_iff.mp (by decide +kernel)

theorem report_stays_empty_completedRun :
    ∃ s, Runs.run (step sampleConfig) freshState completedRun = some s ∧
      findViolations s.store.db = [] := by
  obtain ⟨s, hs⟩ := completedRun_runs
  exact ⟨s, hs, (report_stays_empty freshState_initial seedDb_report (by decide +kernel) hs).1⟩

theorem history_append_only_completedRun :
    ∃ s, Runs.run (step sampleConfig) freshState completedRun = some s ∧
      freshState.store.db.transfers.map Transfer.id <+: s.store.db.transfers.map Transfer.id := by
  obtain ⟨s, hs⟩ := completedRun_runs
  exact ⟨s, hs, (history_append_only freshState_initial Runs.run_nil hs).2.2.1⟩

end LoyaltyTransfer
