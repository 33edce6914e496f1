/-
# `LoyaltyTransfer.LockOrder` — the saga's transactions never deadlock

Which rows each transaction of the saga and the reconciler locks, in the order it
does.  Rows are locked FOR NO KEY UPDATE, which the FOR KEY SHARE of a foreign key
does not conflict with; an INSERT into `transfers` waits for another one of the
same id or of the same idempotency key, and for nothing else.

    transfer row        `lock_transfer`, at most one
    account rows        `lock_accounts_for_update`, once, ascending
    index entries       the INSERT of a debit
    account rows        the UPDATEs of `post_journal`: all locked by then

**Proved here.**  That this is the order of every transaction (`SagaTx.wellOrdered`),
that a transaction which commits has locked every row it changed
(`SagaTx.locks_writes`), and that the wait-for graph of any number of them, on any
rows, never has a cycle (`saga_deadlock_free`).
-/
import LoyaltyTransfer.Changes
import LoyaltyTransfer.Seed
import LoyaltyTransfer.Lib.Locks
import Mathlib.Data.Prod.Lex

namespace LoyaltyTransfer

open Transaction Locks

/-! ## What is locked -/

inductive Row where
  | transfer (id : String)
  | account (id : Nat)
  | transferId (id : String)
  | transferKey (userId key : String)
  deriving DecidableEq

/-- Rows of lower level are locked first, accounts among themselves by id. -/
def Row.level : Row → Nat
  | .transfer _ => 0
  | .account _ => 1
  | .transferId _ => 2
  | .transferKey _ _ => 3

def Row.rank (row : Row) : ℕ ×ₗ ℕ :=
  toLex (row.level, match row with | .account id => id | _ => 0)

/-- The locks of a transaction, in the order of the fields. -/
structure LockPlan where
  transfers : List String
  accounts : List Nat
  inserted : List Row
  updated : List Nat

def LockPlan.nothing : LockPlan := ⟨[], [], [], []⟩

def LockPlan.rows (p : LockPlan) : List Row :=
  p.transfers.map Row.transfer ++ p.accounts.map Row.account ++ p.inserted

def LockPlan.requests (p : LockPlan) : List (Locks.Request Row) :=
  p.rows.map .lock ++ p.updated.map fun id => .lock (.account id)

/-- `lock_accounts_for_update`: the rows that exist, `ORDER BY id`. -/
def Database.lockedIds (db : Database) (ids : List Nat) : List Nat :=
  (ids.dedup.filter fun id => (db.account? id).isSome).insertionSort fun a b => a ≤ b

/-- The accounts `post_journal` updates, in the order it does. -/
def updatedIds (postings : List Posting) : List Nat :=
  (((netBalanceChanges postings).insertionSort fun a b => a.1 ≤ b.1).filter fun e =>
    decide (e.2 ≠ 0)).map Prod.fst

/-- `settle_transfer`. -/
def settlePlan (db : Database) (t : Transfer) : LockPlan :=
  ((do
    let sourceClearing ← db.systemAccount? t.sourceProgramId .transferClearing
    let sourceSettlement ← db.systemAccount? t.sourceProgramId .partnerSettlement
    let destinationSettlement ← db.systemAccount? t.destinationProgramId .partnerSettlement
    let accounts := db.lockedIds [sourceClearing.id, sourceSettlement.id,
      destinationSettlement.id, t.destinationAccountId]
    let updated := match db.account? t.destinationAccountId with
      | some destination => updatedIds (settlePostings
          ⟨sourceClearing, sourceSettlement, destinationSettlement, destination⟩ t)
      | none => []
    pure { LockPlan.nothing with accounts, updated }) : Option LockPlan).getD .nothing

/-- `reverse_transfer`. -/
def reversePlan (db : Database) (t : Transfer) : LockPlan :=
  ((do
    let clearing ← db.systemAccount? t.sourceProgramId .transferClearing
    let accounts := db.lockedIds [clearing.id, t.sourceAccountId]
    let updated := match db.account? t.sourceAccountId with
      | some source => updatedIds (reversePostings clearing source t.sourcePoints)
      | none => []
    pure { LockPlan.nothing with accounts, updated }) : Option LockPlan).getD .nothing

/-- `_debit_source`, when it gets as far as its locks. -/
def debitPlan? (db : Database) (now : Time) (transferId userId : String)
    (request : TransferRequest) (key : String) : Option LockPlan := do
  let route ← (db.getRoute request.sourceProgram request.destinationProgram now).toOption
  let rate ← (ensureRouteUsable route).toOption
  let _ ← (calculateConversion rate request.sourcePoints route.bonus now).toOption
  let source ← db.userAccount? userId route.source.id
  let destination ← db.userAccount? userId route.destination.id
  let _ ← db.program? route.destination.id
  let _ ← destination.externalMemberId
  let clearing ← db.systemAccount? route.source.id .transferClearing
  pure {
    transfers := []
    accounts := db.lockedIds [source.id, clearing.id]
    inserted := [.transferId transferId, .transferKey userId key]
    updated := updatedIds (debitPostings source clearing request.sourcePoints) }

/-- `lock_transfer`, and then what the transaction does with the row. -/
def lockTransferPlan (db : Database) (transferId : String) (rest : Transfer → LockPlan) :
    LockPlan :=
  match db.transfer? transferId with
  | some t => { rest t with transfers := [transferId] }
  | none => .nothing

/-- `_apply_partner_outcome`. -/
def outcomePlan (db : Database) (result : PartnerCreditResult) (t : Transfer) : LockPlan :=
  if t.status ≠ .partnerSubmitted then .nothing
  else
    match result.outcome, nonempty result.confirmationId with
    | .success, some _ => settlePlan db t
    | .rejected, _ => reversePlan db t
    | .notSent, _ => reversePlan db t
    | _, _ => .nothing

/-- `_reverse_interrupted`. -/
def interruptedPlan (db : Database) (t : Transfer) : LockPlan :=
  if t.status ≠ .sourceDebited then .nothing else reversePlan db t

/-- `_apply`. -/
def statusPlan (db : Database) (policy : ReconciliationPolicy) (now : Time)
    (answer : PartnerStatusResult) (t : Transfer) : LockPlan :=
  if t.status ∉ verifiableStatuses then .nothing
  else
    match answer.status, nonempty answer.confirmationId with
    | .completed, some _ => settlePlan db t
    | .notFound, _ =>
        if t.createdAt + policy.notFoundGrace ≤ now then reversePlan db t else .nothing
    | _, _ => .nothing

inductive SagaTx where
  | debitSource (now createdAt : Time) (transferId userId : String) (request : TransferRequest)
      (key : String)
  | markSubmitted (now : Time) (transferId partnerCode : String)
  | applyPartnerOutcome (verificationDelay now wall : Time) (transferId : String)
      (result : PartnerCreditResult)
  | reverseInterrupted (wall : Time) (transferId : String)
  | applyStatus (policy : ReconciliationPolicy) (now wall : Time) (transferId : String)
      (answer : PartnerStatusResult)
  | claimDue (policy : ReconciliationPolicy) (now : Time) (batchSize : Nat)

/-- The locks of the transactions that wait for them, given what they read. -/
def SagaTx.lockPlan (db : Database) : SagaTx → LockPlan
  | .debitSource now _ transferId userId request key =>
      (debitPlan? db now transferId userId request key).getD .nothing
  | .markSubmitted _ transferId _ => lockTransferPlan db transferId fun _ => .nothing
  | .applyPartnerOutcome _ _ _ transferId result =>
      lockTransferPlan db transferId (outcomePlan db result)
  | .reverseInterrupted _ transferId => lockTransferPlan db transferId (interruptedPlan db)
  | .applyStatus policy now _ transferId answer =>
      lockTransferPlan db transferId (statusPlan db policy now answer)
  | .claimDue _ _ _ => .nothing

/-- The rows `claim_due` goes through, in its order. -/
def dueRows (db : Database) (policy : ReconciliationPolicy) (now : Time) : List Row :=
  ((db.transfers.filter fun t => policy.due now t).insertionSort
    fun a b => claimsBefore a b).map fun t => .transfer t.id

/-- What a transaction asks for.  `claim_due` locks FOR UPDATE SKIP LOCKED and then
updates what it got. -/
def SagaTx.requests (db : Database) : SagaTx → List (Locks.Request Row)
  | .claimDue policy now batchSize => [.claim (dueRows db policy now) batchSize]
  | tx => (tx.lockPlan db).requests

/-! ## The order -/

/-- At most one transfer row, then accounts in one ascending sweep, then the entries
of an INSERT; every account updated is one of those locked. -/
structure LockPlan.WellOrdered (p : LockPlan) : Prop where
  oneTransfer : p.transfers.length ≤ 1
  ascending : p.accounts.Pairwise fun a b => a < b
  inserted : p.inserted = [] ∨
    ∃ id userId key, p.inserted = [.transferId id, .transferKey userId key]
  updated : ∀ id ∈ p.updated, id ∈ p.accounts

theorem nothing_wellOrdered : LockPlan.nothing.WellOrdered :=
  ⟨Nat.zero_le 1, List.Pairwise.nil, .inl rfl, by rintro _ ⟨⟩⟩

section

variable {db : Database}

theorem lockedIds_ascending (ids : List Nat) : (db.lockedIds ids).Pairwise fun a b => a < b := by
  have hsorted : (db.lockedIds ids).Pairwise fun a b => a ≤ b :=
    List.pairwise_insertionSort _ _
  have hnodup : (db.lockedIds ids).Nodup :=
    (List.perm_insertionSort _ _).nodup_iff.mpr ((List.nodup_dedup ids).filter _)
  exact (hsorted.and hnodup).imp fun h => lt_of_le_of_ne h.1 h.2

theorem mem_lockedIds {ids : List Nat} {id : Nat} :
    id ∈ db.lockedIds ids ↔ id ∈ ids ∧ (db.account? id).isSome = true := by
  rw [Database.lockedIds, (List.perm_insertionSort _ _).mem_iff, List.mem_filter, List.mem_dedup]

/-- The accounts with a net change, each of them posted to. -/
theorem mem_updatedIds {postings : List Posting} {id : Nat} :
    id ∈ updatedIds postings ↔
      (∃ p ∈ postings, p.accountId = id) ∧ netChange postings id ≠ 0 := by
  simp only [updatedIds, List.mem_map, List.mem_filter, (List.perm_insertionSort _ _).mem_iff,
    decide_eq_true_eq]
  constructor
  · rintro ⟨⟨id', d⟩, ⟨hmem, hne⟩, rfl⟩
    obtain ⟨hposted, hd⟩ := Tally.mem_tally.mp hmem
    exact ⟨hposted, by rw [netChange, ← hd]; exact hne⟩
  · rintro ⟨hposted, hne⟩
    exact ⟨(id, _), ⟨Tally.mem_tally.mpr ⟨hposted, rfl⟩, hne⟩, rfl⟩

theorem mem_updatedIds_of_netChange {postings : List Posting} {id : Nat}
    (h : netChange postings id ≠ 0) : id ∈ updatedIds postings := by
  refine mem_updatedIds.mpr ⟨?_, h⟩
  by_contra hnone
  push Not at hnone
  exact h (Tally.total_of_not_mem hnone)

theorem account?_isSome {a : Account} (h : a ∈ db.accounts) : (db.account? a.id).isSome = true := by
  cases hlookup : db.account? a.id with
  | none => exact absurd rfl (Table.lookup_none hlookup h)
  | some _ => rfl

/-- A journal between accounts that exist updates only what was locked for it. -/
theorem updated_locked {postings : List Posting} {ids : List Nat}
    (h : ∀ p ∈ postings, p.accountId ∈ ids ∧ ∃ a ∈ db.accounts, a.id = p.accountId) :
    ∀ id ∈ updatedIds postings, id ∈ db.lockedIds ids := by
  intro id hid
  obtain ⟨⟨p, hp, rfl⟩, -⟩ := mem_updatedIds.mp hid
  obtain ⟨hmem, a, ha, heq⟩ := h p hp
  exact mem_lockedIds.mpr ⟨hmem, by rw [← heq]; exact account?_isSome ha⟩

variable {t : Transfer}

theorem settlePlan_eq {accts : SettleAccounts} (h : accts.Of db t) :
    settlePlan db t = {
      LockPlan.nothing with
      accounts := db.lockedIds [accts.sourceClearing.id, accts.sourceSettlement.id,
        accts.destinationSettlement.id, t.destinationAccountId]
      updated := updatedIds (settlePostings accts t) } := by
  simp only [settlePlan, h.sourceClearing, h.sourceSettlement, h.destinationSettlement,
    h.destination]
  rfl

theorem settle_updated {accts : SettleAccounts} (h : accts.Of db t) :
    ∀ id ∈ updatedIds (settlePostings accts t), id ∈ db.lockedIds [accts.sourceClearing.id,
      accts.sourceSettlement.id, accts.destinationSettlement.id, t.destinationAccountId] := by
  refine updated_locked fun p hp => ?_
  simp only [settlePostings, List.mem_cons, List.not_mem_nil, or_false] at hp
  rcases hp with rfl | rfl | rfl | rfl
  · exact ⟨by simp [Posting.debit], _, (systemAccount?_spec h.sourceClearing).1, rfl⟩
  · exact ⟨by simp [Posting.credit], _, (systemAccount?_spec h.sourceSettlement).1, rfl⟩
  · exact ⟨by simp [Posting.debit], _, (systemAccount?_spec h.destinationSettlement).1, rfl⟩
  · have hid : accts.destination.id = t.destinationAccountId := Table.lookup_key h.destination
    exact ⟨by simp [Posting.credit, hid], _, Table.lookup_mem h.destination, rfl⟩

theorem settlePlan_wellOrdered (t : Transfer) : (settlePlan db t).WellOrdered := by
  cases hc : db.systemAccount? t.sourceProgramId .transferClearing with
  | none => simpa [settlePlan, hc] using nothing_wellOrdered
  | some sourceClearing =>
      cases hs : db.systemAccount? t.sourceProgramId .partnerSettlement with
      | none => simpa [settlePlan, hc, hs] using nothing_wellOrdered
      | some sourceSettlement =>
          cases hd : db.systemAccount? t.destinationProgramId .partnerSettlement with
          | none => simpa [settlePlan, hc, hs, hd] using nothing_wellOrdered
          | some destinationSettlement =>
              simp only [settlePlan, hc, hs, hd]
              refine ⟨Nat.zero_le 1, lockedIds_ascending _, .inl rfl, ?_⟩
              cases hdest : db.account? t.destinationAccountId with
              | none =>
                  intro row hrow
                  cases hrow
              | some destination => exact settle_updated ⟨hc, hs, hd, hdest⟩

theorem reversePlan_eq {clearing source : Account}
    (hc : db.systemAccount? t.sourceProgramId .transferClearing = some clearing)
    (hs : db.account? t.sourceAccountId = some source) :
    reversePlan db t = {
      LockPlan.nothing with
      accounts := db.lockedIds [clearing.id, t.sourceAccountId]
      updated := updatedIds (reversePostings clearing source t.sourcePoints) } := by
  simp only [reversePlan, hc, hs]
  rfl

theorem reversePlan_wellOrdered (t : Transfer) : (reversePlan db t).WellOrdered := by
  cases hc : db.systemAccount? t.sourceProgramId .transferClearing with
  | none => simpa [reversePlan, hc] using nothing_wellOrdered
  | some clearing =>
      simp only [reversePlan, hc]
      refine ⟨Nat.zero_le 1, lockedIds_ascending _, .inl rfl, ?_⟩
      cases hs : db.account? t.sourceAccountId with
      | none =>
          intro row hrow
          cases hrow
      | some source =>
          refine updated_locked fun p hp => ?_
          simp only [reversePostings, List.mem_cons, List.not_mem_nil, or_false] at hp
          rcases hp with rfl | rfl
          · exact ⟨by simp [Posting.debit], _, (systemAccount?_spec hc).1, rfl⟩
          · have hid : source.id = t.sourceAccountId := Table.lookup_key hs
            exact ⟨by simp [Posting.credit, hid], _, Table.lookup_mem hs, rfl⟩

theorem debitPlan?_wellOrdered {now : Time} {transferId userId : String}
    {request : TransferRequest} {key : String} {p : LockPlan}
    (h : debitPlan? db now transferId userId request key = some p) : p.WellOrdered := by
  simp only [debitPlan?, bind, Option.bind_eq_some_iff, pure, Option.some.injEq] at h
  obtain ⟨route, -, rate, -, _, -, source, hs, destination, -, _, -, _, -, clearing, hc, rfl⟩ := h
  refine ⟨Nat.zero_le 1, lockedIds_ascending _, .inr ⟨_, _, _, rfl⟩, ?_⟩
  refine updated_locked fun p hp => ?_
  simp only [debitPostings, List.mem_cons, List.not_mem_nil, or_false] at hp
  rcases hp with rfl | rfl
  · exact ⟨by simp [Posting.debit], _, (userAccount?_spec hs).1, rfl⟩
  · exact ⟨by simp [Posting.credit], _, (systemAccount?_spec hc).1, rfl⟩

theorem lockTransferPlan_wellOrdered {transferId : String} {rest : Transfer → LockPlan}
    (h : ∀ t, (rest t).WellOrdered) : (lockTransferPlan db transferId rest).WellOrdered := by
  rw [lockTransferPlan]
  split
  · rename_i t _
    exact { h t with oneTransfer := le_rfl }
  · exact nothing_wellOrdered

theorem outcomePlan_wellOrdered (result : PartnerCreditResult) (t : Transfer) :
    (outcomePlan db result t).WellOrdered := by
  rw [outcomePlan]
  split
  · exact nothing_wellOrdered
  · split
    · exact settlePlan_wellOrdered t
    · exact reversePlan_wellOrdered t
    · exact reversePlan_wellOrdered t
    · exact nothing_wellOrdered

theorem interruptedPlan_wellOrdered (t : Transfer) : (interruptedPlan db t).WellOrdered := by
  rw [interruptedPlan]
  split
  · exact nothing_wellOrdered
  · exact reversePlan_wellOrdered t

theorem statusPlan_wellOrdered (policy : ReconciliationPolicy) (now : Time)
    (answer : PartnerStatusResult) (t : Transfer) :
    (statusPlan db policy now answer t).WellOrdered := by
  rw [statusPlan]
  split
  · exact nothing_wellOrdered
  · split
    · exact settlePlan_wellOrdered t
    · split
      · exact reversePlan_wellOrdered t
      · exact nothing_wellOrdered
    · exact nothing_wellOrdered

theorem SagaTx.wellOrdered (db : Database) (tx : SagaTx) : (tx.lockPlan db).WellOrdered := by
  cases tx with
  | debitSource now createdAt transferId userId request key =>
      rw [SagaTx.lockPlan]
      cases hplan : debitPlan? db now transferId userId request key with
      | none => exact nothing_wellOrdered
      | some p => exact debitPlan?_wellOrdered hplan
  | markSubmitted now transferId partnerCode =>
      exact lockTransferPlan_wellOrdered fun _ => nothing_wellOrdered
  | applyPartnerOutcome verificationDelay now wall transferId result =>
      exact lockTransferPlan_wellOrdered (outcomePlan_wellOrdered result)
  | reverseInterrupted wall transferId =>
      exact lockTransferPlan_wellOrdered interruptedPlan_wellOrdered
  | applyStatus policy now wall transferId answer =>
      exact lockTransferPlan_wellOrdered (statusPlan_wellOrdered policy now answer)
  | claimDue policy now batchSize => exact nothing_wellOrdered

end

/-! ## The rows in order -/

theorem rank_lt_of_level {row row' : Row} (h : row.level < row'.level) : row.rank < row'.rank :=
  Prod.Lex.toLex_lt_toLex.mpr (.inl h)

theorem rank_account_lt {id id' : Nat} (h : id < id') :
    (Row.account id).rank < (Row.account id').rank :=
  Prod.Lex.toLex_lt_toLex.mpr (.inr ⟨rfl, h⟩)

section

variable {p : LockPlan}

theorem LockPlan.WellOrdered.rows (h : p.WellOrdered) :
    p.rows.Pairwise fun x y => x.rank < y.rank := by
  have htransfers : (p.transfers.map Row.transfer).Pairwise fun x y => x.rank < y.rank := by
    have hone := h.oneTransfer
    cases hlist : p.transfers with
    | nil => exact List.Pairwise.nil
    | cons id rest =>
        rw [hlist, List.length_cons] at hone
        rw [List.eq_nil_of_length_eq_zero (show rest.length = 0 by omega)]
        exact List.pairwise_singleton _ _
  have haccounts : (p.accounts.map Row.account).Pairwise fun x y => x.rank < y.rank :=
    List.pairwise_map.mpr (h.ascending.imp fun hlt => rank_account_lt hlt)
  have hinserted : p.inserted.Pairwise (fun x y => x.rank < y.rank) ∧
      ∀ row ∈ p.inserted, 1 < row.level := by
    rcases h.inserted with hnil | ⟨id, userId, key, hrows⟩
    · rw [hnil]
      exact ⟨List.Pairwise.nil, by simp⟩
    · rw [hrows]
      exact ⟨List.pairwise_pair.mpr (rank_lt_of_level (Nat.lt_succ_self 2)), by simp [Row.level]⟩
  refine List.pairwise_append.mpr ⟨List.pairwise_append.mpr ⟨htransfers, haccounts, ?_⟩,
    hinserted.1, ?_⟩
  · intro x hx y hy
    obtain ⟨id, -, rfl⟩ := List.mem_map.mp hx
    obtain ⟨id', -, rfl⟩ := List.mem_map.mp hy
    exact rank_lt_of_level Nat.zero_lt_one
  · intro x hx y hy
    have hlevel := hinserted.2 y hy
    rcases List.mem_append.mp hx with hx | hx
    · obtain ⟨id, -, rfl⟩ := List.mem_map.mp hx
      exact rank_lt_of_level (Nat.zero_lt_one.trans hlevel)
    · obtain ⟨id, -, rfl⟩ := List.mem_map.mp hx
      exact rank_lt_of_level hlevel

theorem LockPlan.WellOrdered.ordered (h : p.WellOrdered) : Ordered Row.rank [] p.requests := by
  refine ordered_chain h.rows (by simp) ?_
  intro q hq
  obtain ⟨id, hid, rfl⟩ := List.mem_map.mp hq
  refine ⟨.account id, .inr ?_, rfl⟩
  exact List.mem_append_left _ (List.mem_append_right _ (List.mem_map_of_mem (h.updated id hid)))

theorem SagaTx.ordered (db : Database) (tx : SagaTx) : Ordered Row.rank [] (tx.requests db) := by
  cases tx with
  | claimDue policy now batchSize =>
      intro row hrow
      cases hrow
  | _ => exact (SagaTx.wellOrdered db _).ordered

end

/-! ## What is changed was locked -/

/-- The transaction commits. -/
def SagaTx.Commits (db db' : Database) : SagaTx → Prop
  | .debitSource now createdAt transferId userId request key =>
      ∃ d, (LoyaltyTransfer.debitSource now createdAt transferId userId request key).run db =
        .ok (d, db')
  | .markSubmitted now transferId partnerCode =>
      ∃ u, (LoyaltyTransfer.markSubmitted now transferId partnerCode).run db = .ok (u, db')
  | .applyPartnerOutcome verificationDelay now wall transferId result =>
      ∃ r, (LoyaltyTransfer.applyPartnerOutcome verificationDelay now wall transferId result).run
        db = .ok (r, db')
  | .reverseInterrupted wall transferId =>
      ∃ r, (LoyaltyTransfer.reverseInterrupted wall transferId).run db = .ok (r, db')
  | .applyStatus policy now wall transferId answer =>
      ∃ r, (LoyaltyTransfer.applyStatus policy now wall transferId answer).run db = .ok (r, db')
  | .claimDue policy now batchSize =>
      ∃ locked claimed, (LoyaltyTransfer.claimDue policy now batchSize locked).run db =
        .ok (claimed, db')

/-- The rows that differ afterwards are among those updated, and the transfer is the
one locked. -/
structure LockPlan.Covers (p : LockPlan) (db db' : Database) : Prop where
  accounts : ∀ a ∈ db.accounts, a ∉ db'.accounts → a.id ∈ p.updated
  transfers : ∀ t ∈ db.transfers, t ∉ db'.transfers → t.id ∈ p.transfers

section

variable {db db' : Database}

theorem shifted_covered {postings : List Posting} {a : Account} (ha : a ∈ db.accounts)
    (hnot : a ∉ shiftBalances (netChange postings) db.accounts) : a.id ∈ updatedIds postings := by
  refine mem_updatedIds_of_netChange fun hzero => hnot ?_
  refine List.mem_map.mpr ⟨a, ha, ?_⟩
  rw [hzero, add_zero]

theorem replaced_covered {t' x : Transfer} (hx : x ∈ db.transfers)
    (hnot : x ∉ Table.replace Transfer.id t' db.transfers) : x.id = t'.id := by
  by_contra hne
  exact hnot (Table.mem_replace.mpr (.inr ⟨hx, hne⟩))

theorem unchanged_covers (p : LockPlan) : p.Covers db db :=
  ⟨fun _ ha hnot => absurd ha hnot, fun _ ht hnot => absurd ht hnot⟩

/-- A write of the transfer alone. -/
theorem saved_covers {p : LockPlan} {t' : Transfer} {events : List TransferEvent}
    {moment : Option Time} (hid : t'.id ∈ p.transfers) :
    p.Covers db (saved db t' events moment) where
  accounts := fun _ ha hnot => absurd ha hnot
  transfers := fun x hx hnot => by rw [replaced_covered hx hnot]; exact hid

/-- A journal and a write of the transfer. -/
theorem posted_covers {p : LockPlan} {t' : Transfer} {events : List TransferEvent}
    {moment : Option Time} {journalType : JournalType} {postings : List Posting}
    {transferId : Option String}
    (hid : t'.id ∈ p.transfers) (hupdated : p.updated = updatedIds postings) :
    p.Covers db (saved (posted db journalType postings transferId) t' events moment) where
  accounts := fun a ha hnot => by rw [hupdated]; exact shifted_covered ha hnot
  transfers := fun x hx hnot => by rw [replaced_covered hx hnot]; exact hid

theorem settleTransfer_covers (hn : (db.accounts.map Account.id).Nodup) {wall : Time}
    {t : Transfer} {confirmationId reason : String} {metadata : List (String × Json.Value)}
    {u : Unit} (h : (settleTransfer wall t confirmationId reason metadata).run db = .ok (u, db')) :
    { settlePlan db t with transfers := [t.id] : LockPlan }.Covers db db' := by
  obtain ⟨accts, hof, -, -, -, -, rfl⟩ := (settleTransfer_ok hn).mp h
  exact posted_covers (List.mem_singleton_self _) (by rw [settlePlan_eq hof])

theorem reverseTransfer_covers (hn : (db.accounts.map Account.id).Nodup) {wall : Time}
    {t : Transfer} {code : TransferFailureCode} {message reason : String}
    {metadata : List (String × Json.Value)} {u : Unit}
    (h : (reverseTransfer wall t code message reason metadata).run db = .ok (u, db')) :
    { reversePlan db t with transfers := [t.id] : LockPlan }.Covers db db' := by
  obtain ⟨clearing, source, hc, hs, -, -, -, -, rfl⟩ := (reverseTransfer_ok hn).mp h
  exact posted_covers (List.mem_singleton_self _) (by rw [reversePlan_eq hc hs])

theorem debitSource_covers (hn : (db.accounts.map Account.id).Nodup) {now createdAt : Time}
    {transferId userId key : String} {request : TransferRequest} {d : DebitedTransfer}
    (h : (debitSource now createdAt transferId userId request key).run db = .ok (d, db')) :
    ((debitPlan? db now transferId userId request key).getD .nothing).Covers db db' := by
  obtain ⟨terms, hpriced, -, -, -, rfl⟩ := debitSource_ok hn h
  obtain ⟨program, hprogram, -⟩ := hpriced.partner
  have hplan : debitPlan? db now transferId userId request key = some ⟨[],
      db.lockedIds [terms.source.id, terms.clearing.id],
      [.transferId transferId, .transferKey userId key],
      updatedIds (debitPostings terms.source terms.clearing request.sourcePoints)⟩ := by
    simp only [debitPlan?, bind, Option.bind_eq_some_iff, pure]
    exact ⟨terms.route, by rw [hpriced.route]; rfl, terms.rate, by rw [hpriced.rate]; rfl,
      terms.conversion, by rw [hpriced.conversion]; rfl, terms.source, hpriced.source,
      terms.destination, hpriced.destination, program, hprogram, terms.memberId, hpriced.member,
      terms.clearing, hpriced.clearing, rfl⟩
  rw [hplan]
  refine ⟨?_, ?_⟩
  · intro a ha hnot
    have hpoints : ((terms.transfer transferId userId key createdAt).movedTo .sourceDebited
        now).sourcePoints = request.sourcePoints := calculateConversion_ok hpriced.conversion
    simp only [opened, posted, hpoints] at hnot
    exact shifted_covered ha hnot
  · intro x hx hnot
    exact absurd (List.mem_append_left _ hx) hnot

theorem applyPartnerOutcome_covers (hn : (db.accounts.map Account.id).Nodup)
    {verificationDelay now wall : Time} {transferId : String} {result : PartnerCreditResult}
    {r : TransferStatus}
    (h : (applyPartnerOutcome verificationDelay now wall transferId result).run db =
      .ok (r, db')) :
    (lockTransferPlan db transferId (outcomePlan db result)).Covers db db' := by
  obtain ⟨t, rfl, ht, hrun⟩ := applyPartnerOutcome_inv h
  simp only [lockTransferPlan, ht]
  rcases hrun with ⟨-, -, rfl⟩ | ⟨hs, hrun⟩
  · exact unchanged_covers _
  · have hs := not_not.mpr hs
    cases hrun with
    | settled hout hconf hrun =>
        simp only [outcomePlan, if_neg hs, hout, hconf]
        exact settleTransfer_covers hn hrun
    | rejected hout hrun =>
        simp only [outcomePlan, if_neg hs, hout]
        exact reverseTransfer_covers hn hrun
    | unavailable hout hrun =>
        simp only [outcomePlan, if_neg hs, hout]
        exact reverseTransfer_covers hn hrun
    | parked => exact saved_covers (List.mem_singleton_self _)

theorem reverseInterrupted_covers (hn : (db.accounts.map Account.id).Nodup) {wall : Time}
    {transferId : String} {r : ReconcileResult}
    (h : (reverseInterrupted wall transferId).run db = .ok (r, db')) :
    (lockTransferPlan db transferId (interruptedPlan db)).Covers db db' := by
  obtain ⟨t, rfl, ht, hrun⟩ := reverseInterrupted_inv h
  simp only [lockTransferPlan, ht, interruptedPlan]
  rcases hrun with ⟨-, -, rfl⟩ | ⟨hs, -, _, _, _, hrun⟩
  · exact unchanged_covers _
  · rw [if_neg (not_not.mpr hs)]
    exact reverseTransfer_covers hn hrun

theorem applyStatus_covers (hn : (db.accounts.map Account.id).Nodup)
    {policy : ReconciliationPolicy} {now wall : Time} {transferId : String}
    {answer : PartnerStatusResult} {r : ReconcileResult}
    (h : (applyStatus policy now wall transferId answer).run db = .ok (r, db')) :
    (lockTransferPlan db transferId (statusPlan db policy now answer)).Covers db db' := by
  obtain ⟨t, rfl, ht, hrun⟩ := applyStatus_inv h
  simp only [lockTransferPlan, ht]
  rcases hrun with ⟨-, -, rfl⟩ | ⟨hv, hrun⟩
  · exact unchanged_covers _
  · have hv := not_not.mpr hv
    cases hrun with
    | settled hst hconf hrun =>
        simp only [statusPlan, if_neg hv, hst, hconf]
        exact settleTransfer_covers hn hrun
    | reversed hst hlate hrun =>
        simp only [statusPlan, if_neg hv, hst, if_pos hlate]
        exact reverseTransfer_covers hn hrun
    | early _ _ hrow =>
        cases hrow
        exact saved_covers (List.mem_singleton_self _)
    | counted => exact saved_covers (List.mem_singleton_self _)
    | exhausted => exact saved_covers (List.mem_singleton_self _)

/-- A lease changes only rows that were due. -/
theorem leased_due {policy : ReconciliationPolicy} {now expiry : Time} {claimed : List String}
    {t : Transfer} (ht : t ∈ db.transfers) (hnot : t ∉ (leased claimed expiry db).transfers)
    (hdue : ∀ id ∈ claimed, ∃ x ∈ db.transfers, x.id = id ∧ policy.due now x = true) :
    .transfer t.id ∈ dueRows db policy now := by
  have hclaimed : t.id ∈ claimed := by
    by_contra hfree
    exact hnot (List.mem_map.mpr ⟨t, ht, if_neg hfree⟩)
  obtain ⟨x, hx, hid, hxdue⟩ := hdue t.id hclaimed
  refine List.mem_map.mpr ⟨x, ?_, by rw [hid]⟩
  rw [List.mem_insertionSort, List.mem_filter]
  exact ⟨hx, hxdue⟩

/-- Every row a transaction changes, it has locked: accounts and transfers alike. -/
theorem SagaTx.locks_writes (hn : (db.accounts.map Account.id).Nodup) {tx : SagaTx}
    (h : tx.Commits db db') :
    (∀ a ∈ db.accounts, a ∉ db'.accounts → a.id ∈ (tx.lockPlan db).updated) ∧
      ∀ t ∈ db.transfers, t ∉ db'.transfers → .lock (.transfer t.id) ∈ tx.requests db ∨
        ∃ rows limit, .claim rows limit ∈ tx.requests db ∧ .transfer t.id ∈ rows := by
  have hcovers : ∀ {p : LockPlan}, p.Covers db db' → (∀ a ∈ db.accounts, a ∉ db'.accounts →
      a.id ∈ p.updated) ∧ ∀ t ∈ db.transfers, t ∉ db'.transfers →
        .lock (.transfer t.id) ∈ p.requests ∨
          ∃ rows limit, .claim rows limit ∈ p.requests ∧ .transfer t.id ∈ rows := by
    intro p hp
    refine ⟨hp.accounts, fun t ht hnot => .inl ?_⟩
    exact List.mem_append_left _ (List.mem_map_of_mem (List.mem_append_left _
      (List.mem_append_left _ (List.mem_map_of_mem (hp.transfers t ht hnot)))))
  cases tx with
  | debitSource now createdAt transferId userId request key =>
      obtain ⟨d, hrun⟩ := h
      exact hcovers (debitSource_covers hn hrun)
  | markSubmitted now transferId partnerCode =>
      obtain ⟨u, hrun⟩ := h
      obtain ⟨t, ht, -, -, -, rfl⟩ := markSubmitted_ok.mp hrun
      obtain rfl : t.id = transferId := Table.lookup_key ht
      refine hcovers ?_
      simp only [SagaTx.lockPlan, lockTransferPlan, ht]
      exact saved_covers (List.mem_singleton_self _)
  | applyPartnerOutcome verificationDelay now wall transferId result =>
      obtain ⟨r, hrun⟩ := h
      exact hcovers (applyPartnerOutcome_covers hn hrun)
  | reverseInterrupted wall transferId =>
      obtain ⟨r, hrun⟩ := h
      exact hcovers (reverseInterrupted_covers hn hrun)
  | applyStatus policy now wall transferId answer =>
      obtain ⟨r, hrun⟩ := h
      exact hcovers (applyStatus_covers hn hrun)
  | claimDue policy now batchSize =>
      obtain ⟨locked, claimed, hrun⟩ := h
      obtain ⟨rfl, -, rfl⟩ := claimDue_ok.mp hrun
      refine ⟨fun a ha hnot => absurd ha hnot, fun t ht hnot => .inr ?_⟩
      refine ⟨_, _, List.mem_singleton_self _, leased_due ht hnot ?_⟩
      intro id hid
      obtain ⟨x, hx, rfl⟩ := List.mem_map.mp hid
      obtain ⟨hmem, hdue, -⟩ := claimable_due hx
      exact ⟨x, hmem, rfl, hdue⟩

end

/-! ## Any number of transactions -/

/-- What a transaction asks for depends on what it reads. -/
def lockStep : List (Session Row) → Locks.Action (Database × SagaTx) →
    Option (List (Session Row)) :=
  Locks.step fun p => p.2.requests p.1

/-- In every interleaving the wait-for graph stays acyclic; every transaction locks
in order, and changes only what it has locked. -/
theorem saga_deadlock_free {as : List (Locks.Action (Database × SagaTx))}
    {sessions : List (Session Row)} (h : Runs.run lockStep [] as = some sessions) :
    (∀ i, ¬ Relation.TransGen (WaitsFor sessions) i i) ∧
      ∀ (db : Database) (tx : SagaTx), (tx.lockPlan db).WellOrdered ∧
        ∀ db', (db.accounts.map Account.id).Nodup → tx.Commits db db' →
          (∀ a ∈ db.accounts, a ∉ db'.accounts → a.id ∈ (tx.lockPlan db).updated) ∧
            ∀ t ∈ db.transfers, t ∉ db'.transfers → .lock (.transfer t.id) ∈ tx.requests db ∨
              ∃ rows limit, .claim rows limit ∈ tx.requests db ∧ .transfer t.id ∈ rows := by
  refine ⟨run_no_wait_cycle (fun p => p.2.ordered p.1) h, fun db tx => ⟨tx.wellOrdered db, ?_⟩⟩
  intro db' hn hcommits
  exact SagaTx.locks_writes hn hcommits

/-- Two debits of one account: the first has it, the second asks for it. -/
def contendingDebits : List (Locks.Action (Database × SagaTx)) :=
  [.start (seedDb, .debitSource 1 1 "tr_1" "user_alice"
      ⟨"NOVA_REWARDS", "SKYWARD_MILES", 1000⟩ "key-1"),
    .start (seedDb, .debitSource 1 1 "tr_2" "user_alice"
      ⟨"NOVA_REWARDS", "STAYWELL_POINTS", 2000⟩ "key-2"),
    .advance 0, .advance 0]

theorem saga_deadlock_free_contendingDebits :
    ∃ sessions, Runs.run lockStep [] contendingDebits = some sessions ∧ WaitsFor sessions 1 0 ∧
      ∀ i, ¬ Relation.TransGen (WaitsFor sessions) i i := by
  have hrun : Runs.run lockStep [] contendingDebits = some
      [⟨[.account 11, .account 1], [.lock (.transferId "tr_1"),
          .lock (.transferKey "user_alice" "key-1"), .lock (.account 1), .lock (.account 11)]⟩,
        ⟨[], [.lock (.account 1), .lock (.account 11), .lock (.transferId "tr_2"),
          .lock (.transferKey "user_alice" "key-2"), .lock (.account 1),
          .lock (.account 11)]⟩] := by
    decide +kernel
  refine ⟨_, hrun, ?_, (saga_deadlock_free hrun).1⟩
  exact ⟨_, .account 1, _, _, rfl, rfl, by decide, rfl, by decide⟩

end LoyaltyTransfer
