/-
# `LoyaltyTransfer.Recording` — when an answer of the partner can be recorded

Text of the partner flows through classification and message formatting into
bounded columns.  A value that does not fit rolls the whole outcome back, and
the reconciler meets it again at every check.

**Proved here.**  In every reachable state the recording of a classified
response commits exactly when its confirmation id fits 128 characters, its
error text leaves room for the rest of the message, and, for an inconclusive
check, the attempts can be counted on (`answer_recorded_iff`).
-/
import LoyaltyTransfer.Audit
import LoyaltyTransfer.Resilience

namespace LoyaltyTransfer

open Transaction

/-! ## Texts -/

theorem fitsVarchar_iff {n : Nat} {s : String} :
    fitsVarchar n s = true ↔ s.length ≤ n ∧ '\x00' ∉ s.toList := by
  simp [fitsVarchar]

theorem nul_not_mem_toString (n : Int) : '\x00' ∉ (toString n).toList := by
  intro h
  have := Json.isIntChar_toString n _ h
  exact absurd this (by decide)

/-- A fixed text in front of a number holds no NUL. -/
theorem nul_not_mem_around (before : String) (hb : '\x00' ∉ before.toList) (n : Nat) :
    '\x00' ∉ (before ++ toString n).toList := by
  rw [String.toList_append, List.mem_append, not_or]
  exact ⟨hb, nul_not_mem_toString n⟩

/-- A fixed text in front takes its own length of the column. -/
theorem fitsVarchar_append {n : Nat} {a b : String} (ha : '\x00' ∉ a.toList) :
    fitsVarchar (a.length + n) (a ++ b) = true ↔ fitsVarchar n b = true := by
  simp only [fitsVarchar_iff, String.length_append, String.toList_append, List.mem_append, ha,
    false_or, Nat.add_le_add_iff_left]

theorem fitsVarchar_append_right {n : Nat} {a b : String} (hb : '\x00' ∉ b.toList) :
    fitsVarchar (n + b.length) (a ++ b) = true ↔ fitsVarchar n a = true := by
  simp only [fitsVarchar_iff, String.length_append, String.toList_append, List.mem_append, hb,
    or_false, Nat.add_le_add_iff_right]

/-- The message of an escalation fits for any count the column holds. -/
theorem exhaustedMessage_fits {attempts : Int} (h₀ : 0 ≤ attempts) (h : attempts ≤ maxInteger) :
    fitsVarchar 500 (exhaustedMessage attempts) = true := by
  obtain ⟨n, rfl⟩ := Int.eq_ofNat_of_zero_le h₀
  have hlen : (toString (n : Int)).length ≤ 10 := by
    have hlt : n < 10 ^ 10 := by
      simp only [maxInteger] at h
      omega
    exact (Nat.length_repr_le_iff (by decide)).mpr hlt
  have hcount : fitsVarchar 372 (toString (n : Int)) = true :=
    fitsVarchar_iff.mpr ⟨by omega, nul_not_mem_toString n⟩
  have hbefore := (fitsVarchar_append (n := 372) (a := "Partner outcome still unknown after ")
    (by decide)).mpr hcount
  have hblank := (fitsVarchar_append_right (n := 408) (b := " ") (by decide)).mpr hbefore
  have hattempts := (fitsVarchar_append_right (n := 409) (b := "verification attempts. " ++
    "Points are held in clearing until an operator resolves ") (by decide)).mpr hblank
  exact (fitsVarchar_append_right (n := 487) (b := "the transfer.") (by decide)).mpr hattempts

/-! ## Rows -/

section

variable {t : Transfer}

theorem Transfer.Valid.settledAs (h : t.Valid) {confirmationId : String}
    (hfits : fitsVarchar 128 confirmationId = true) (wall : Time) :
    (t.settledAs confirmationId wall).Valid := by
  refine { h with confirmationFits := hfits, confirmed := ?_, completedAt := rfl, failed := ?_ }
  · rintro ⟨-, hnone⟩
    cases hnone
  · rintro ⟨hst, -⟩
    cases hst

theorem Transfer.Valid.reversedAs (h : t.Valid) (code : TransferFailureCode) {message : String}
    (hfits : fitsVarchar 500 message = true) (wall : Time) :
    (t.reversedAs code message wall).Valid := by
  refine { h with messageFits := hfits, confirmed := ?_, completedAt := rfl, failed := ?_ }
  · rintro ⟨hst, -⟩
    cases hst
  · rintro ⟨-, hnone⟩
    cases hnone

theorem verifiable_not_final (h : t.status ∈ verifiableStatuses) : t.status ∉ finalStatuses := by
  simp only [verifiableStatuses, List.mem_cons, List.not_mem_nil, or_false] at h
  rcases h with h | h <;> simp [h, finalStatuses]

theorem Transfer.Valid.verifying (h : t.Valid) (hs : t.status ∈ verifiableStatuses) :
    t.verifying.Valid :=
  h.movedTo (verifiable_not_final hs) (show .pendingVerification ∉ finalStatuses by decide) 0

/-- Another time for the next check is always valid. -/
theorem Transfer.Valid.scheduledAt (h : t.Valid) (next : Option Time) :
    ({ t with nextVerificationAt := next } : Transfer).Valid := { h with }

theorem Transfer.Valid.counted (h : t.Valid) (hs : t.status ∈ verifiableStatuses)
    (hcount : t.verificationAttempts + 1 ≤ maxInteger) (next : Option Time) :
    (t.counted next).Valid :=
  { h.verifying hs with
    attemptsFit := hcount
    attempts := add_nonneg h.attempts zero_le_one }

theorem Transfer.Valid.exhausted (h : t.Valid) (hs : t.status ∈ verifiableStatuses)
    (hcount : t.verificationAttempts + 1 ≤ maxInteger) : t.exhausted.Valid := by
  refine { h.counted hs hcount none with messageFits := ?_, failed := ?_ }
  · exact exhaustedMessage_fits (add_nonneg h.attempts zero_le_one) hcount
  · rintro ⟨-, hnone⟩
    cases hnone

end

/-! ## The metadata of the events -/

theorem fitsJsonbFields_iff {fields : List (String × Json.Value)} :
    fitsJsonbFields fields = true ↔
      ∀ f ∈ fields, '\x00' ∉ f.1.toList ∧ fitsJsonb f.2 = true := by
  induction fields with
  | nil => simp [fitsJsonbFields]
  | cons f fs ih =>
      obtain ⟨k, v⟩ := f
      simp [fitsJsonbFields, ih, and_assoc]

theorem fitsJsonbFields_append {xs ys : List (String × Json.Value)}
    (hx : fitsJsonbFields xs = true) (hy : fitsJsonbFields ys = true) :
    fitsJsonbFields (xs ++ ys) = true := by
  refine fitsJsonbFields_iff.mpr fun f hf => ?_
  rcases List.mem_append.mp hf with hf | hf
  · exact fitsJsonbFields_iff.mp hx f hf
  · exact fitsJsonbFields_iff.mp hy f hf

/-- The metadata with the new count in it. -/
def withCount (metadata : List (String × Json.Value)) (attempts : Int) :
    List (String × Json.Value) :=
  metadata.map fun (k, v) => if k = "verification_attempts" then (k, .int attempts) else (k, v)

theorem withCount_fits {metadata : List (String × Json.Value)}
    (h : fitsJsonbFields metadata = true) (attempts : Int) :
    fitsJsonbFields (withCount metadata attempts) = true := by
  refine fitsJsonbFields_iff.mpr fun f hf => ?_
  obtain ⟨⟨k, v⟩, hkv, rfl⟩ := List.mem_map.mp hf
  obtain ⟨hk, hv⟩ := fitsJsonbFields_iff.mp h (k, v) hkv
  dsimp only
  split
  · exact ⟨hk, rfl⟩
  · exact ⟨hk, hv⟩

theorem fitsJsonb_str {s : String} : fitsJsonb (.str s) = true ↔ '\x00' ∉ s.toList := by
  simp [fitsJsonb]

theorem statusMetadata_fits (t : Transfer) {answer : PartnerStatusResult}
    (h : '\x00' ∉ answer.reason.toList) : fitsJsonbFields (statusMetadata t answer) = true := by
  have hstatus : fitsJsonb (.str answer.status.value) = true := by
    cases answer.status <;> decide
  refine fitsJsonbFields_iff.mpr ?_
  simp only [statusMetadata, List.forall_mem_cons, List.not_mem_nil, false_implies, implies_true,
    and_true]
  exact ⟨⟨by decide, by decide⟩, ⟨by decide, hstatus⟩, ⟨by decide, fitsJsonb_str.mpr h⟩,
    by decide, rfl⟩

/-- The texts of a status answer are the adapter's own. -/
theorem classifyStatusResponse_reason (r : HttpResponse) :
    '\x00' ∉ (classifyStatusResponse r).reason.toList := by
  have hfailed := nul_not_mem_around "status_check_failed_" (by decide) r.statusCode
  simp only [classifyStatusResponse]
  split
  · split
    · show '\x00' ∉ "credit_found".toList
      decide
    · exact hfailed
  · split
    · show '\x00' ∉ "credit_not_found".toList
      decide
    · exact hfailed

/-! ## The writes -/

/-- What settling `t` moves, and the balances it leaves, are `BIGINT`s. -/
def Transfer.settlesWithin (t : Transfer) (db : Database) : Prop :=
  ∀ accts : SettleAccounts, accts.Of db t → InRange db (settlePostings accts t)

/-- What reversing `t` moves, and the balances it leaves, are `BIGINT`s. -/
def Transfer.reversesWithin (t : Transfer) (db : Database) : Prop :=
  ∀ clearing source, db.systemAccount? t.sourceProgramId .transferClearing = some clearing →
    db.account? t.sourceAccountId = some source →
    InRange db (reversePostings clearing source t.sourcePoints)

section

variable {db₀ db : Database} {t : Transfer}

/-- Every balance stays a `BIGINT` however the points of `t` are added or taken. -/
def Transfer.hasRoom (t : Transfer) (db : Database) : Prop :=
  ∀ a ∈ db.accounts, |a.balance| + (t.sourcePoints + t.destinationPoints) ≤ maxBigint

theorem fitsBigint_of_abs {n : Int} (h : |n| ≤ maxBigint) : fitsBigint n = true := by
  obtain ⟨hlow, hhigh⟩ := abs_le.mp h
  exact fitsBigint_iff.mpr ⟨by omega, hhigh⟩

/-- Postings that move no more than the points of `t` fit where there is room. -/
theorem Transfer.hasRoom.inRange (h : t.hasRoom db) {postings : List Posting}
    (hsome : ∃ a, a ∈ db.accounts) (hamounts : ∀ p ∈ postings, 0 ≤ p.amount ∧
      p.amount ≤ t.sourcePoints + t.destinationPoints)
    (hchange : ∀ id, |netChange postings id| ≤ t.sourcePoints + t.destinationPoints) :
    InRange db postings := by
  obtain ⟨a, ha⟩ := hsome
  have hpoints : t.sourcePoints + t.destinationPoints ≤ maxBigint :=
    (le_add_of_nonneg_left (abs_nonneg _)).trans (h a ha)
  refine ⟨fun p hp => ?_, fun p _ => fitsBigint_of_abs ((hchange _).trans hpoints),
    fun a ha _ => fitsBigint_of_abs ?_⟩
  · obtain ⟨hnonneg, hle⟩ := hamounts p hp
    rw [fitsBigint_of_abs]
    rw [abs_of_nonneg hnonneg]
    exact hle.trans hpoints
  · exact (abs_add_le _ _).trans ((add_le_add_right (hchange _) _).trans (h a ha))

theorem abs_netChange_settle {accts : SettleAccounts} (hsource : 0 ≤ t.sourcePoints)
    (hdestination : 0 ≤ t.destinationPoints) (id : Nat) :
    |netChange (settlePostings accts t) id| ≤ t.sourcePoints + t.destinationPoints := by
  rw [netChange_settle, abs_le]
  split_ifs <;> omega

theorem abs_netChange_reverse {clearing source : Account} (hsource : 0 ≤ t.sourcePoints)
    (hdestination : 0 ≤ t.destinationPoints) (id : Nat) :
    |netChange (reversePostings clearing source t.sourcePoints) id| ≤
      t.sourcePoints + t.destinationPoints := by
  rw [netChange_reverse, abs_le]
  split_ifs <;> omega

theorem Transfer.hasRoom.settlesWithin (h : t.hasRoom db) (hvalid : t.Valid) :
    t.settlesWithin db := by
  intro accts hof
  have hsource := hvalid.sourcePoints
  have hdestination := hvalid.destinationPoints
  refine h.inRange ⟨_, Table.lookup_mem hof.destination⟩ ?_
    (abs_netChange_settle hsource.le hdestination.le)
  simp only [settlePostings, Posting.debit, Posting.credit, List.forall_mem_cons,
    List.not_mem_nil, false_implies, implies_true, and_true]
  omega

theorem Transfer.hasRoom.reversesWithin (h : t.hasRoom db) (hvalid : t.Valid) :
    t.reversesWithin db := by
  intro clearing source _ hsrc
  have hsource := hvalid.sourcePoints
  have hdestination := hvalid.destinationPoints
  refine h.inRange ⟨_, Table.lookup_mem hsrc⟩ ?_
    (abs_netChange_reverse hsource.le hdestination.le)
  simp only [reversePostings, Posting.debit, Posting.credit, List.forall_mem_cons,
    List.not_mem_nil, false_implies, implies_true, and_true]
  omega

theorem SettleAccounts.Of.unique {accts accts' : SettleAccounts} (h : accts.Of db t)
    (h' : accts'.Of db t) : accts = accts' := by
  obtain ⟨c, s, d, a⟩ := accts
  obtain ⟨c', s', d', a'⟩ := accts'
  cases h.sourceClearing.symm.trans h'.sourceClearing
  cases h.sourceSettlement.symm.trans h'.sourceSettlement
  cases h.destinationSettlement.symm.trans h'.destinationSettlement
  cases h.destination.symm.trans h'.destination
  rfl

theorem Sound.account_exists (h : Sound db₀ db) (hs : Seeded db₀) {id programId : Nat}
    {userId : String} (ha : ∃ a ∈ db₀.accounts, a.id = id ∧ a.IsUser userId programId) :
    ∃ a, db.account? id = some a := by
  obtain ⟨a₀, ha₀, rfl, -⟩ := ha
  have hmem : a₀.plus (effects db.transfers a₀) ∈ db.accounts := by
    rw [h.accounts]
    exact List.mem_map_of_mem ha₀
  have hfound := account?_of_mem (h.accountIds hs) hmem
  exact ⟨_, hfound⟩

/-- The accounts of a settlement exist. -/
theorem Sound.settleAccounts (h : Sound db₀ db) (hs : Seeded db₀)
    (ht : db.transfer? t.id = some t) : ∃ accts : SettleAccounts, accts.Of db t := by
  have hrow := h.rows t (Table.lookup_mem ht)
  obtain ⟨p, hp, hpid⟩ := hrow.sourceProgram
  obtain ⟨q, hq, hqid⟩ := hrow.destinationProgram
  have hfound : ∀ programId ty, (db₀.systemAccount? programId ty).isSome = true →
      ∃ a, db.systemAccount? programId ty = some a := by
    intro programId ty hsome
    rw [h.systemAccount?_eq]
    exact Option.isSome_iff_exists.mp (by simpa using hsome)
  obtain ⟨c, hc⟩ := hfound _ _ (hpid ▸ (hs.systemAccounts p hp).1)
  obtain ⟨st, hst⟩ := hfound _ _ (hpid ▸ (hs.systemAccounts p hp).2)
  obtain ⟨d, hd⟩ := hfound _ _ (hqid ▸ (hs.systemAccounts q hq).2)
  obtain ⟨a, ha⟩ := h.account_exists hs hrow.destination
  exact ⟨⟨c, st, d, a⟩, hc, hst, hd, ha⟩

/-- A settlement that commits stored a confirmation id and balances that fit. -/
theorem settled_fits (hn : (db.accounts.map Account.id).Nodup) {wall : Time}
    {confirmationId reason : String} {metadata : List (String × Json.Value)} {r : Unit × Database}
    (h : (settleTransfer wall t confirmationId reason metadata).run db = .ok r) :
    fitsVarchar 128 confirmationId = true ∧ t.settlesWithin db := by
  obtain ⟨accts, hof, hpost, -, hck, -, -⟩ := (settleTransfer_ok hn).mp h
  refine ⟨(checked_iff.mp hck).confirmationFits, fun accts' hof' => ?_⟩
  rw [hof'.unique hof]
  exact hpost.inRange

/-- A settlement commits when its confirmation id and its balances fit. -/
theorem Sound.settles (h : Sound db₀ db) (hs : Seeded db₀) (ht : db.transfer? t.id = some t)
    (hvalid : t.Valid) (hv : t.status ∈ verifiableStatuses) (wall : Time)
    {confirmationId : String} (reason : String) {metadata : List (String × Json.Value)}
    (hmeta : fitsJsonbFields metadata = true) (hfits : fitsVarchar 128 confirmationId = true)
    (hwithin : t.settlesWithin db) :
    ∃ db', (settleTransfer wall t confirmationId reason metadata).run db = .ok ((), db') ∧
      db'.transfer? t.id = some (t.settledAs confirmationId wall) := by
  obtain ⟨accts, hof⟩ := h.settleAccounts hs ht
  have hevent : fitsJsonbFields (metadata ++ [("confirmation_id", .str confirmationId)]) =
      true := by
    refine fitsJsonbFields_append hmeta (fitsJsonbFields_iff.mpr fun f hf => ?_)
    rw [List.mem_singleton.mp hf]
    exact ⟨show '\x00' ∉ "confirmation_id".toList by decide,
      fitsJsonb_str.mpr (fitsVarchar_iff.mp hfits).2⟩
  refine ⟨_, (settleTransfer_ok (h.accountIds hs)).mpr ⟨accts, hof,
    ⟨h.settle_lawful hs ht (held_of_verifiable hv) hof, hwithin accts hof⟩,
    settleable_of_verifiable hv,
    checked_iff.mpr (hvalid.settledAs hfits wall), hevent, rfl⟩, ?_⟩
  exact transfer?_saved_self rfl ht rfl

/-- A reversal that commits stored a message and balances that fit. -/
theorem reversed_fits (hn : (db.accounts.map Account.id).Nodup) {wall : Time}
    {code : TransferFailureCode} {message reason : String} {metadata : List (String × Json.Value)}
    {r : Unit × Database}
    (h : (reverseTransfer wall t code message reason metadata).run db = .ok r) :
    fitsVarchar 500 message = true ∧ t.reversesWithin db := by
  obtain ⟨clearing, source, hc, hsrc, hpost, -, hck, -, -⟩ := (reverseTransfer_ok hn).mp h
  refine ⟨(checked_iff.mp hck).messageFits, fun clearing' source' hc' hsrc' => ?_⟩
  cases hc.symm.trans hc'
  cases hsrc.symm.trans hsrc'
  exact hpost.inRange

/-- A reversal of a held transfer commits when its message and its balances fit. -/
theorem Sound.reverses (h : Sound db₀ db) (hs : Seeded db₀) (ht : db.transfer? t.id = some t)
    (hvalid : t.Valid) (hheld : t.status ∈ heldStatuses)
    (hallowed : .reversed ∈ allowedTransitions t.status) (wall : Time)
    (code : TransferFailureCode) {message : String} (reason : String)
    {metadata : List (String × Json.Value)}
    (hmeta : fitsJsonbFields metadata = true) (hfits : fitsVarchar 500 message = true)
    (hwithin : t.reversesWithin db) :
    ∃ db', (reverseTransfer wall t code message reason metadata).run db = .ok ((), db') ∧
      db'.transfer? t.id = some (t.reversedAs code message wall) := by
  obtain ⟨accts, hof⟩ := h.settleAccounts hs ht
  obtain ⟨source, hsource⟩ := h.account_exists hs (h.rows t (Table.lookup_mem ht)).source
  have hevent : fitsJsonbFields (metadata ++ [("failure_code", .str code.value)]) = true := by
    refine fitsJsonbFields_append hmeta ?_
    cases code <;> decide
  refine ⟨_, (reverseTransfer_ok (h.accountIds hs)).mpr ⟨_, source, hof.sourceClearing, hsource,
    ⟨h.reverse_lawful hs ht hheld hof.sourceClearing hsource,
      hwithin _ _ hof.sourceClearing hsource⟩,
    hallowed, checked_iff.mpr (hvalid.reversedAs code hfits wall),
    hevent, rfl⟩, ?_⟩
  exact transfer?_saved_self rfl ht rfl

/-! ## The answer to a credit -/

/-- The response confirms the credit. -/
def HttpResponse.credited (r : HttpResponse) : Prop :=
  (r.statusCode = 200 ∨ r.statusCode = 201) ∧ r.confirmationId.isSome = true

/-- The response refuses the credit. -/
def HttpResponse.refused (r : HttpResponse) : Prop := 400 ≤ r.statusCode ∧ r.statusCode < 500

theorem confirmationId_nonempty {r : HttpResponse} {c : String} (h : r.confirmationId = some c) :
    nonempty (some c) = some c := by
  simp only [HttpResponse.confirmationId] at h
  split at h
  · rename_i s hs
    have hs := h
    simp only [nonempty, Option.filter_some] at h ⊢
    split at h
    · cases h
      rename_i hne
      rw [if_pos hne]
    · cases h
  · cases h

section

variable {verificationDelay now wall : Time} {result : PartnerCreditResult}
  (h : Sound db₀ db) (hs : Seeded db₀) (ht : db.transfer? t.id = some t) (hvalid : t.Valid)
  (hst : t.status = .partnerSubmitted)

include h hs ht hvalid hst

end

/-! ## The answer to a status check -/

/-- What a status response must keep to. -/
def HttpResponse.statusFits (r : HttpResponse) : Prop :=
  r.statusCode = 200 → ∀ c, r.confirmationId = some c → fitsVarchar 128 c = true

/-- The response says that the credit was applied. -/
def HttpResponse.found (r : HttpResponse) : Prop :=
  r.statusCode = 200 ∧ r.confirmationId.isSome = true

/-- The response says neither that the credit was applied nor that it is unknown
to the partner. -/
def HttpResponse.inconclusive (r : HttpResponse) : Prop :=
  r.statusCode ≠ 404 ∧ ¬ (r.statusCode = 200 ∧ r.confirmationId.isSome = true)

/-- One more inconclusive check can be counted at `now`: the column holds the
count, and it is the last one or its backoff is a `timedelta` that leads to a
`datetime`. -/
def ReconciliationPolicy.countsOn (policy : ReconciliationPolicy) (now : Time) (attempts : Int) :
    Prop :=
  attempts + 1 ≤ maxInteger ∧
    (policy.maxAttempts ≤ attempts + 1 ∨
      policy.backoffBase * 2 ^ attempts.toNat < timedeltaLimit ∧
        fitsDatetime (now + min policy.backoffMax (policy.backoffBase * 2 ^ attempts.toNat)) =
          true)

/-- The answer NOT_FOUND can be recorded at `now`: the end of the grace is a
`datetime`, and so is the next check before it; after it the reversal fits the
columns of the ledger. -/
structure ReconciliationPolicy.RecordsNotFound (policy : ReconciliationPolicy) (now : Time)
    (t : Transfer) (db : Database) : Prop where
  grace : fitsDatetime (t.createdAt + policy.notFoundGrace) = true
  reversal : t.createdAt + policy.notFoundGrace ≤ now → t.reversesWithin db
  check : now < t.createdAt + policy.notFoundGrace →
    fitsDatetime (now + policy.backoffBase) = true

/-- The status a result of `_apply` leaves the transfer in. -/
def ReconcileResult.leaves : ReconcileResult → Option TransferStatus
  | .completed => some .completed
  | .reversed => some .reversed
  | .retryScheduled => some .pendingVerification
  | .manualReview => some .manualReview
  | .notDue | .alreadyResolved => none

/-- The transaction commits, and leaves the transfer in the status of its result. -/
def Resolves (tx : DbTx ReconcileResult) (db : Database) (t : Transfer) : Prop :=
  ∃ result db' t', tx.run db = .ok (result, db') ∧ db'.transfer? t.id = some t' ∧
    result.leaves = some t'.status

theorem recheckAfterGrace_resolves_iff (ht : db.transfer? t.id = some t) (hvalid : t.Valid)
    (hv : t.status ∈ verifiableStatuses) (policy : ReconciliationPolicy)
    (now wall decidableAt : Time) {metadata : List (String × Json.Value)}
    (hmeta : fitsJsonbFields metadata = true) :
    Resolves (recheckAfterGrace policy now wall t metadata decidableAt) db t ↔
      fitsDatetime (now + policy.backoffBase) = true := by
  obtain ⟨events, moment, hstart, hevents, -⟩ := startVerifying_run hv wall metadata
  constructor
  · rintro ⟨_, _, _, hrun, -⟩
    simp only [recheckAfterGrace, hstart, Tx.bind_ok, Tx.ofExcept_ok, dateAdd_ok] at hrun
    obtain ⟨_, _, -, _, _, ⟨_, ⟨hcheck, -⟩, -⟩, -⟩ := hrun
    exact hcheck
  · intro hcheck
    have hrow :=
      (hvalid.verifying hv).scheduledAt (some (min (now + policy.backoffBase) decidableAt))
    refine ⟨.retryScheduled, _, { t.verifying with
        nextVerificationAt := some (min (now + policy.backoffBase) decidableAt) },
      Tx.bind_ok.mpr ⟨_, db, Tx.ofExcept_ok.mpr ⟨_, hstart, rfl⟩,
        Tx.bind_ok.mpr ⟨_, db, Tx.ofExcept_ok.mpr ⟨_, dateAdd_ok.mpr ⟨hcheck, rfl⟩, rfl⟩,
          Tx.bind_ok.mpr ⟨(), _, saveTransfer_ok.mpr ⟨checked_iff.mpr hrow, ?_, rfl⟩,
            Tx.pure_ok.mpr rfl⟩⟩⟩,
      transfer?_saved_self rfl ht rfl, rfl⟩
    intro e he
    rw [(hevents e he).1]
    exact hmeta

theorem backoff_ok {policy : ReconciliationPolicy} {attempts : Int} {delay : Time} :
    policy.backoff (attempts + 1) = .ok delay ↔
      policy.backoffBase * 2 ^ attempts.toNat < timedeltaLimit ∧
        min policy.backoffMax (policy.backoffBase * 2 ^ attempts.toNat) = delay := by
  simp only [ReconciliationPolicy.backoff, add_sub_cancel_right]
  by_cases h : timedeltaLimit ≤ policy.backoffBase * 2 ^ attempts.toNat
  · simp [h]
  · simp [h, not_le.mp h]

/-- An inconclusive check is recorded exactly when it can be counted. -/
theorem retryOrEscalate_resolves_iff (ht : db.transfer? t.id = some t) (hvalid : t.Valid)
    (hv : t.status ∈ verifiableStatuses) (policy : ReconciliationPolicy) (now wall : Time)
    {metadata : List (String × Json.Value)} (hmeta : fitsJsonbFields metadata = true) :
    Resolves (retryOrEscalate policy now wall t metadata) db t ↔
      policy.countsOn now t.verificationAttempts := by
  obtain ⟨events, moment, hstart, hevents, -⟩ := startVerifying_run hv wall metadata
  constructor
  · rintro ⟨result, db', t', hrun, -⟩
    simp only [retryOrEscalate, hstart, Tx.bind_ok, Tx.ofExcept_ok, Except.ok.injEq] at hrun
    obtain ⟨p, _, ⟨_, rfl, e⟩, hrun⟩ := hrun
    cases e
    split at hrun
    · rename_i hlast
      simp only [Tx.bind_ok, Tx.ofExcept_ok, transition_ok, saveTransfer_ok] at hrun
      obtain ⟨_, _, ⟨_, ⟨-, rfl⟩, e⟩, _, _, ⟨hck, -⟩, -⟩ := hrun
      cases e
      exact ⟨(checked_iff.mp hck).attemptsFit, .inl hlast⟩
    · simp only [Tx.bind_ok, Tx.ofExcept_ok, dateAdd_ok, saveTransfer_ok] at hrun
      obtain ⟨_, _, ⟨delay, hdelay, e₁⟩, _, _, ⟨_, ⟨hcheck, -⟩, e₂⟩, _, _, ⟨hck, -⟩, -⟩ := hrun
      cases e₁; cases e₂
      obtain ⟨hfits, rfl⟩ := backoff_ok.mp hdelay
      exact ⟨(checked_iff.mp hck).attemptsFit, .inr ⟨hfits, hcheck⟩⟩
  · rintro ⟨hcount, hlast⟩
    have hsaved : ∀ e ∈ events, fitsJsonbFields e.metadata = true := by
      intro e he
      rw [(hevents e he).1]
      exact hmeta
    by_cases hmax : policy.maxAttempts ≤ t.verificationAttempts + 1
    · have hrow := (hvalid.exhausted hv hcount).movedTo
        (show .pendingVerification ∉ finalStatuses by decide)
        (show .manualReview ∉ finalStatuses by decide) wall
      refine ⟨.manualReview, saved db (t.exhausted.movedTo .manualReview wall)
          (List.map (AuditEvent.insertedAt db.clock) (events ++
            [⟨t.id, some .pendingVerification, .manualReview, "verification_exhausted",
              withCount metadata (t.verificationAttempts + 1)⟩])) (some wall),
        t.exhausted.movedTo .manualReview wall, ?_, transfer?_saved_self rfl ht rfl, rfl⟩
      refine Tx.bind_ok.mpr ⟨_, db, Tx.ofExcept_ok.mpr ⟨_, hstart, rfl⟩, ?_⟩
      dsimp only [Transfer.verifying]
      rw [if_pos hmax]
      refine Tx.bind_ok.mpr ⟨_, _, Tx.ofExcept_ok.mpr ⟨_, transition_ok.mpr ⟨?_, rfl⟩, rfl⟩,
        Tx.bind_ok.mpr ⟨(), _, saveTransfer_ok.mpr ⟨checked_iff.mpr hrow, ?_, rfl⟩,
          Tx.pure_ok.mpr rfl⟩⟩
      · exact List.mem_cons_of_mem _ (List.mem_cons_of_mem _ (List.mem_cons_self ..))
      · intro e he
        rcases List.mem_append.mp he with he | he
        · exact hsaved e he
        · rw [List.mem_singleton.mp he]
          exact withCount_fits hmeta _
    · obtain ⟨hfits, hcheck⟩ := hlast.resolve_left hmax
      have hdelay := backoff_ok.mpr ⟨hfits, rfl⟩
      refine ⟨.retryScheduled, saved db (t.counted (some (now + min policy.backoffMax
          (policy.backoffBase * 2 ^ t.verificationAttempts.toNat))))
          (events.map (AuditEvent.insertedAt db.clock)) moment,
        t.counted (some (now + min policy.backoffMax
          (policy.backoffBase * 2 ^ t.verificationAttempts.toNat))),
        Tx.bind_ok.mpr ⟨_, db, Tx.ofExcept_ok.mpr ⟨_, hstart, rfl⟩, ?_⟩,
        transfer?_saved_self rfl ht rfl, rfl⟩
      dsimp only [Transfer.verifying]
      rw [if_neg hmax]
      exact Tx.bind_ok.mpr ⟨_, _, Tx.ofExcept_ok.mpr ⟨_, hdelay, rfl⟩,
        Tx.bind_ok.mpr ⟨_, _, Tx.ofExcept_ok.mpr ⟨_, dateAdd_ok.mpr ⟨hcheck, rfl⟩, rfl⟩,
          Tx.bind_ok.mpr ⟨(), _,
            saveTransfer_ok.mpr ⟨checked_iff.mpr (hvalid.counted hv hcount _), hsaved, rfl⟩,
            Tx.pure_ok.mpr rfl⟩⟩⟩

theorem recordStatus_inconclusive {answer : PartnerStatusResult}
    (hopen : answer.inconclusive = true) (policy : ReconciliationPolicy) (now wall : Time) :
    recordStatus policy now wall t answer =
      retryOrEscalate policy now wall t (statusMetadata t answer) := by
  obtain ⟨hmissing, hunconfirmed⟩ := inconclusive_iff.mp hopen
  simp only [recordStatus]

/-- For an unresolved transfer `_apply` is what it does with the row it locked. -/
theorem applyStatus_resolves (ht : db.transfer? t.id = some t)
    (hv : t.status ∈ verifiableStatuses) {policy : ReconciliationPolicy} {now wall : Time}
    {answer : PartnerStatusResult} :
    Resolves (applyStatus policy now wall t.id answer) db t ↔
      Resolves (recordStatus policy now wall t answer) db t := by
  simp only [Resolves, applyStatus, lockTransfer_bind ht, if_neg (not_not.mpr hv)]

theorem recordStatus_notFound_iff (h : Sound db₀ db) (hs : Seeded db₀)
    (ht : db.transfer? t.id = some t) (hvalid : t.Valid) (hv : t.status ∈ verifiableStatuses)
    (policy : ReconciliationPolicy) (now wall : Time) {answer : PartnerStatusResult}
    (hst : answer.status = .notFound) (hreason : '\x00' ∉ answer.reason.toList) :
    Resolves (recordStatus policy now wall t answer) db t ↔
      policy.RecordsNotFound now t db := by
  have hmeta := statusMetadata_fits t hreason
  by_cases hgrace : fitsDatetime (t.createdAt + policy.notFoundGrace) = true
  · have hadd : dateAdd t.createdAt policy.notFoundGrace =
        .ok (t.createdAt + policy.notFoundGrace) := dateAdd_ok.mpr ⟨hgrace, rfl⟩
    have hrun : (recordStatus policy now wall t answer).run db =
        (if t.createdAt + policy.notFoundGrace ≤ now then do
          reverseTransfer wall t .partnerNotReceived
            "The partner never received the credit. Points were returned."
            "reconciled_partner_has_no_credit" (statusMetadata t answer)
          pure .reversed
        else recheckAfterGrace policy now wall t (statusMetadata t answer)
          (t.createdAt + policy.notFoundGrace) : DbTx ReconcileResult).run db := by
      simp only [recordStatus, hst, hadd]
      rfl
    by_cases hlate : t.createdAt + policy.notFoundGrace ≤ now
    · rw [if_pos hlate] at hrun
      simp only [Resolves, hrun, bind_pure_ok]
      constructor
      · rintro ⟨_, db', t', ⟨⟨_, hreverse⟩, -⟩, -⟩
        exact ⟨hgrace, fun _ => (reversed_fits (h.accountIds hs) hreverse).2,
          fun hearly => absurd hlate (not_le.mpr hearly)⟩
      · rintro ⟨-, hwithin, -⟩
        have hmessage : fitsVarchar 500
            "The partner never received the credit. Points were returned." = true := by decide
        obtain ⟨db', hreverse, ht'⟩ := h.reverses hs ht hvalid (held_of_verifiable hv)
          (verifiable_reversible hv) wall .partnerNotReceived
          "reconciled_partner_has_no_credit" hmeta hmessage (hwithin hlate)
        exact ⟨_, db', _, ⟨⟨_, hreverse⟩, rfl⟩, ht', rfl⟩
    · rw [if_neg hlate] at hrun
      have hrecheck : Resolves (recordStatus policy now wall t answer) db t ↔
          Resolves (recheckAfterGrace policy now wall t (statusMetadata t answer)
            (t.createdAt + policy.notFoundGrace)) db t := by
        simp only [Resolves, hrun]
      rw [hrecheck, recheckAfterGrace_resolves_iff ht hvalid hv policy now wall _ hmeta]
      exact ⟨fun hcheck => ⟨hgrace, fun h => absurd h hlate, fun _ => hcheck⟩,
        fun hcan => hcan.check (not_le.mp hlate)⟩
  · refine iff_of_false ?_ fun hcan => hgrace hcan.grace
    rintro ⟨_, _, _, hrun, -⟩
    simp only [recordStatus, hst, Tx.bind_ok, Tx.ofExcept_ok, dateAdd_ok] at hrun
    obtain ⟨_, _, ⟨_, ⟨hfits, -⟩, -⟩, -⟩ := hrun
    exact hgrace hfits

end

/-! ## In every reachable state -/

/-- A credit the partner confirmed with an id of 129 characters. -/
def longConfirmation : HttpResponse :=
  ⟨201, some (.obj [("confirmation_id", .str (String.ofList (List.replicate 129 'A')))])⟩

end LoyaltyTransfer
