/-
# `LoyaltyTransfer.Reconciler` — resolving transfers nobody finished

`app/services/reconciliation.py`: which transfers are picked up, what is
decided before the partner is asked, and what is recorded of its answer.  The
read of the snapshot, the decision, the status request and the recording are
separate steps of a reconcile in `Engine`; here is what each of them computes.
-/
import LoyaltyTransfer.Saga

namespace LoyaltyTransfer

open Transaction

inductive ReconcileResult where
  | completed
  | reversed
  | retryScheduled
  | manualReview
  | notDue
  | alreadyResolved
  deriving DecidableEq, Repr

structure ReconciliationPolicy where
  lease : Time
  stuckAfter : Time
  notFoundGrace : Time
  maxAttempts : Int
  backoffBase : Time
  backoffMax : Time

/-- The first duration a Python `timedelta` cannot hold, 10^9 days. -/
def timedeltaLimit : Time := 1000000000 * 86400

/-- `ReconciliationPolicy.backoff`; the product is a `timedelta`, and one too
large raises. -/
def ReconciliationPolicy.backoff (policy : ReconciliationPolicy) (attempts : Int) :
    Except Fault Time :=
  let delay := policy.backoffBase * 2 ^ (attempts - 1).toNat
  if timedeltaLimit ≤ delay then .error (.runtime "OverflowError")
  else .ok (min policy.backoffMax delay)

/-! ## Claiming -/

/-- `_STUCK_STATUSES`. -/
def stuckStatuses : List TransferStatus := [.sourceDebited, .partnerSubmitted]

/-- `_VERIFIABLE_STATUSES`. -/
def verifiableStatuses : List TransferStatus := [.partnerSubmitted, .pendingVerification]

/-- The WHERE clause of `claim_due`; a NULL `next_verification_at` is not `<= now`. -/
def ReconciliationPolicy.due (policy : ReconciliationPolicy) (now : Time) (t : Transfer) : Bool :=
  (decide (t.status = .pendingVerification) &&
      t.nextVerificationAt.any fun next => decide (next ≤ now)) ||
    (decide (t.status ∈ stuckStatuses) && decide (t.createdAt ≤ now - policy.stuckAfter) &&
      t.nextVerificationAt.all fun next => decide (next ≤ now))

/-- `ORDER BY next_verification_at ASC NULLS FIRST, id`. -/
def claimsBefore (a b : Transfer) : Bool :=
  match a.nextVerificationAt, b.nextVerificationAt with
  | none, none => decide (a.id ≤ b.id)
  | none, some _ => true
  | some _, none => false
  | some x, some y => decide (x < y) || (decide (x = y) && decide (a.id ≤ b.id))

/-- The transfers `claim_due` selects: due, not in `locked` (the rows another
transaction holds, which SKIP LOCKED passes over), the first `batchSize`. -/
def claimable (policy : ReconciliationPolicy) (now : Time) (batchSize : Nat) (locked : List String)
    (transfers : List Transfer) : List Transfer :=
  ((transfers.filter fun t => policy.due now t && !locked.contains t.id).insertionSort
    fun a b => claimsBefore a b).take batchSize

/-- The table with `next_verification_at` of the claimed rows pushed to `expiry`. -/
def leased (claimed : List String) (expiry : Time) (db : Database) : Database :=
  { db with
    transfers := db.transfers.map fun t =>
      if t.id ∈ claimed then { t with nextVerificationAt := some expiry } else t }

/-- `claim_due`; the instant that `due` compares with is computed first. -/
def claimDue (policy : ReconciliationPolicy) (now : Time) (batchSize : Nat)
    (locked : List String) : DbTx (List String) := do
  let _ ← Tx.ofExcept (dateAdd now (-policy.stuckAfter))
  let db ← get
  let claimed := (claimable policy now batchSize locked db.transfers).map Transfer.id
  if claimed = [] then pure claimed
  else do
    let expiry ← Tx.ofExcept (dateAdd now policy.lease)
    set (leased claimed expiry db)
    pure claimed

/-! ## Before the partner is asked -/

/-- `_Snapshot`. -/
structure Snapshot where
  status : TransferStatus
  createdAt : Time
  partnerCode : String
  reference : String
  deriving DecidableEq

/-- `_snapshot`. -/
def snapshot (transferId : String) : DbTx Snapshot := do
  let db ← get
  let missing : Fault := .lookup s!"transfer {transferId} does not exist"
  let t ← Tx.ofOption (db.transfer? transferId) missing
  let _ ← Tx.ofOption (db.program? t.sourceProgramId) missing
  let destination ← Tx.ofOption (db.program? t.destinationProgramId) missing
  pure {
    status := t.status
    createdAt := t.createdAt
    partnerCode := destination.partnerCode
    reference := (nonempty t.partnerReference).getD transferId }

inductive ReconcileDecision where
  | answer (r : ReconcileResult)
  | reverseInterrupted
  | askPartner
  deriving DecidableEq

/-- Is the transfer too young to be stuck: asked of the stuck statuses only. -/
def tooYoung (policy : ReconciliationPolicy) (now : Time) (snap : Snapshot) : Except Fault Bool :=
  if snap.status ∈ stuckStatuses then
    (dateAdd now (-policy.stuckAfter)).map fun stuckBefore => decide (stuckBefore < snap.createdAt)
  else .ok false

/-- `_reconcile`, up to the partner call. -/
def reconcileDecision (policy : ReconciliationPolicy) (now : Time) (snap : Snapshot) :
    Except Fault ReconcileDecision :=
  if snap.status ∉ stuckStatuses ++ [.pendingVerification] then .ok (.answer .alreadyResolved)
  else (tooYoung policy now snap).map fun young =>
    if young then .answer .notDue
    else if snap.status = .sourceDebited then .reverseInterrupted
    else .askPartner

/-- `_reverse_interrupted`. -/
def reverseInterrupted (wall : Time) (transferId : String) : DbTx ReconcileResult := do
  let t ← lockTransfer transferId
  if t.status ≠ .sourceDebited then pure .alreadyResolved
  else do
    reverseTransfer wall t .transferInterrupted
      "Processing was interrupted before the partner was contacted. Points were returned."
      "reconciled_interrupted_before_partner" [("source", .str "reconciler")]
    pure .reversed

/-! ## Recording the partner's answer -/

/-- The move to PENDING_VERIFICATION both inconclusive branches start with, and what it
sets `updated_at` to. -/
def startVerifying (wall : Time) (t : Transfer) (metadata : List (String × Json.Value)) :
    Except Fault (Transfer × List AuditEvent × Option Time) :=
  if t.status = .partnerSubmitted then do
    let (t, event) ← transition t .pendingVerification "reconciler_verifying" metadata wall
    pure (t, [event], some wall)
  else pure (t, [], none)

/-- `_recheck_after_grace`: not found, but a request could still be in flight. -/
def recheckAfterGrace (policy : ReconciliationPolicy) (now wall : Time) (t : Transfer)
    (metadata : List (String × Json.Value)) (decidableAt : Time) : DbTx ReconcileResult := do
  let (t, events, moment) ← Tx.ofExcept (startVerifying wall t metadata)
  let soon ← Tx.ofExcept (dateAdd now policy.backoffBase)
  saveTransfer { t with nextVerificationAt := some (min soon decidableAt) } events moment
  pure .retryScheduled

/-- `_retry_or_escalate`: schedule the next check, or hand over to a human. -/
def retryOrEscalate (policy : ReconciliationPolicy) (now wall : Time) (t : Transfer)
    (metadata : List (String × Json.Value)) : DbTx ReconcileResult := do
  let (t, events, moment) ← Tx.ofExcept (startVerifying wall t metadata)
  let attempts := t.verificationAttempts + 1
  let metadata := metadata.map fun (k, v) =>
    if k = "verification_attempts" then (k, .int attempts) else (k, v)
  let t := { t with verificationAttempts := attempts }
  if policy.maxAttempts ≤ attempts then do
    let (t, event) ← Tx.ofExcept (transition
      { t with
        failureCode := some .verificationExhausted
        failureMessage := some (s!"Partner outcome still unknown after {attempts} " ++
          "verification attempts. Points are held in clearing until an operator resolves " ++
          "the transfer.")
        nextVerificationAt := none }
      .manualReview "verification_exhausted" metadata wall)
    saveTransfer t (events ++ [event]) (some wall)
    pure .manualReview
  else do
    let delay ← Tx.ofExcept (policy.backoff attempts)
    let next ← Tx.ofExcept (dateAdd now delay)
    saveTransfer { t with nextVerificationAt := some next } events moment
    pure .retryScheduled

def statusMetadata (t : Transfer) (answer : PartnerStatusResult) : List (String × Json.Value) :=
  [("source", .str "reconciler"), ("partner_status", .str answer.status.value),
    ("partner_reason", .str answer.reason), ("verification_attempts", .int t.verificationAttempts)]

/-- What `_apply` does with a transfer it found verifiable. -/
def recordStatus (policy : ReconciliationPolicy) (now wall : Time) (t : Transfer)
    (answer : PartnerStatusResult) : DbTx ReconcileResult := do
  let metadata := statusMetadata t answer
  match answer.status, nonempty answer.confirmationId with
  | .completed, some confirmationId =>
      settleTransfer wall t confirmationId "reconciled_partner_has_credit" metadata
      pure .completed
  | .notFound, _ => do
      let decidableAt ← Tx.ofExcept (dateAdd t.createdAt policy.notFoundGrace)
      if decidableAt ≤ now then do
        reverseTransfer wall t .partnerNotReceived
          "The partner never received the credit. Points were returned."
          "reconciled_partner_has_no_credit" metadata
        pure .reversed
      else recheckAfterGrace policy now wall t metadata decidableAt
  | _, _ => retryOrEscalate policy now wall t metadata

/-- `_apply`. -/
def applyStatus (policy : ReconciliationPolicy) (now wall : Time) (transferId : String)
    (answer : PartnerStatusResult) : DbTx ReconcileResult := do
  let t ← lockTransfer transferId
  if t.status ∉ verifiableStatuses then pure .alreadyResolved
  else recordStatus policy now wall t answer

end LoyaltyTransfer
