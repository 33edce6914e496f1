/-
# `LoyaltyTransfer.Schema` — the tables of PostgreSQL and what they refuse

`app/db/models.py`: one structure per table, with the columns the engine
reads or writes, and one function per write with the constraints PostgreSQL
checks on it, in the order it checks them: the column types first, then the
CHECKs by name, then the unique indexes, then the foreign keys.

Instants and durations are rational numbers of seconds; points are integers.
A primary key that PostgreSQL takes from a sequence is here the number after the
largest in the table, `Table.nextId`.  A sequence may skip numbers, for a
transaction that rolled back or a row that conflicted; what the rows depend on is
only that a new number is larger than all in use, and no table that takes one
ever loses a row.

The instants that Python computes are `datetime`s, which end with the year 9999:
`dateAdd` raises beyond.  PostgreSQL fills a `server_default=func.now()` with the
start of the transaction, which is the database's `clock` here.

The idempotency table is in `Idempotency`: no transaction touches both.
-/
import LoyaltyTransfer.Domain
import LoyaltyTransfer.Lib.Table
import LoyaltyTransfer.Lib.Transaction

namespace LoyaltyTransfer

open Transaction

/-- An instant, in seconds since 1970 (UTC), or a duration in seconds. -/
abbrev Time := ℚ

/-- The start of the year 1. -/
def datetimeStart : Time := -62135596800

/-- The end of the year 9999. -/
def datetimeEnd : Time := 253402300800

/-- The instants of a Python `datetime`. -/
def fitsDatetime (t : Time) : Bool := decide (datetimeStart ≤ t) && decide (t < datetimeEnd)

/-- `datetime + timedelta`. -/
def dateAdd (t d : Time) : Except Fault Time :=
  if fitsDatetime (t + d) then .ok (t + d) else .error (.runtime "OverflowError")

theorem fitsDatetime_iff {t : Time} :
    fitsDatetime t = true ↔ datetimeStart ≤ t ∧ t < datetimeEnd := by
  simp [fitsDatetime]

theorem fitsDatetime_between {a b t : Time} (ha : fitsDatetime a = true)
    (hb : fitsDatetime b = true) (hat : a ≤ t) (htb : t ≤ b) : fitsDatetime t = true :=
  fitsDatetime_iff.mpr
    ⟨(fitsDatetime_iff.mp ha).1.trans hat, htb.trans_lt (fitsDatetime_iff.mp hb).2⟩

theorem dateAdd_ok {t d r : Time} :
    dateAdd t d = .ok r ↔ fitsDatetime (t + d) = true ∧ t + d = r := by
  by_cases h : fitsDatetime (t + d) = true <;> simp [dateAdd, h]

theorem dateAdd_error {t d : Time} {f : Fault} :
    dateAdd t d = .error f ↔ fitsDatetime (t + d) = false ∧ f = .runtime "OverflowError" := by
  by_cases h : fitsDatetime (t + d) = true
  · simp [dateAdd, h]
  · simp [dateAdd, h, eq_comm]

/-! ## Rows -/

structure Program where
  id : Nat
  code : String
  name : String
  type : ProgramType
  partnerCode : String
  active : Bool
  deriving DecidableEq

structure ConversionRate where
  id : Nat
  sourceProgramId : Nat
  destinationProgramId : Nat
  numerator : Int
  denominator : Int
  minSourcePoints : Int
  sourceIncrement : Int
  maxSourcePoints : Option Int
  version : Int
  effectiveFrom : Time
  effectiveTo : Option Time
  active : Bool
  deriving DecidableEq

structure TransferBonus where
  id : Nat
  sourceProgramId : Nat
  destinationProgramId : Nat
  bonusBps : Int
  startsAt : Time
  endsAt : Time
  deriving DecidableEq

structure Account where
  id : Nat
  ownerType : OwnerType
  userId : Option String
  programId : Nat
  accountType : AccountType
  externalMemberId : Option String
  balance : Int
  deriving DecidableEq

/-- `RateSnapshot`: the exact terms a conversion used, stored on the transfer. -/
structure RateSnapshot where
  rateId : Nat
  version : Int
  numerator : Int
  denominator : Int
  bonusId : Option Nat
  bonusBps : Option Int
  deriving DecidableEq

structure Transfer where
  id : String
  userId : String
  idempotencyKey : String
  sourceProgramId : Nat
  destinationProgramId : Nat
  sourceAccountId : Nat
  destinationAccountId : Nat
  sourcePoints : Int
  basePoints : Int
  bonusPoints : Int
  destinationPoints : Int
  rateId : Nat
  rateSnapshot : RateSnapshot
  status : TransferStatus
  failureCode : Option TransferFailureCode
  failureMessage : Option String
  partnerReference : Option String
  partnerConfirmationId : Option String
  verificationAttempts : Int
  nextVerificationAt : Option Time
  createdAt : Time
  completedAt : Option Time
  deriving DecidableEq

/-- A `TransferEvent` as the code adds it. -/
structure AuditEvent where
  transferId : String
  fromStatus : Option TransferStatus
  toStatus : TransferStatus
  reason : String
  metadata : List (String × Json.Value)

/-- The audit trail: one row per status change. -/
structure TransferEvent extends AuditEvent where
  createdAt : Time

/-- The row of an event inserted at `moment`. -/
def AuditEvent.insertedAt (moment : Time) (e : AuditEvent) : TransferEvent :=
  { e with createdAt := moment }

@[simp] theorem AuditEvent.insertedAt_transferId (moment : Time) (e : AuditEvent) :
    (e.insertedAt moment).transferId = e.transferId := rfl

@[simp] theorem AuditEvent.insertedAt_metadata (moment : Time) (e : AuditEvent) :
    (e.insertedAt moment).metadata = e.metadata := rfl

structure LedgerJournal where
  id : Nat
  journalType : JournalType
  transferId : Option String
  deriving DecidableEq

structure LedgerEntry where
  journalId : Nat
  accountId : Nat
  programId : Nat
  direction : EntryDirection
  amount : Int
  deriving DecidableEq

/-- The `updated_at` columns of `accounts` and `transfers`, by primary key.  They
stand beside the rows: only the flush that writes one and the API read them. -/
structure UpdatedAt where
  accounts : Nat → Time
  transfers : String → Time

structure Database where
  users : List String
  programs : List Program
  conversionRates : List ConversionRate
  transferBonuses : List TransferBonus
  accounts : List Account
  transfers : List Transfer
  transferEvents : List TransferEvent
  ledgerJournals : List LedgerJournal
  ledgerEntries : List LedgerEntry
  updatedAt : UpdatedAt
  clock : Time

abbrev DbTx := Tx Database Fault

/-- The columns of empty tables. -/
def UpdatedAt.blank : UpdatedAt := ⟨fun _ => 0, fun _ => 0⟩

/-- A transfer's column set to `moment`. -/
def UpdatedAt.touch (u : UpdatedAt) (transferId : String) (moment : Time) : UpdatedAt :=
  { u with transfers := Function.update u.transfers transferId moment }

/-- The columns of the accounts that change by something set to `moment`. -/
def UpdatedAt.moved (u : UpdatedAt) (change : Nat → Int) (moment : Time) : UpdatedAt :=
  { u with accounts := fun id => if change id = 0 then u.accounts id else moment }

theorem UpdatedAt.touch_touch (u : UpdatedAt) (id : String) (m m' : Time) :
    (u.touch id m).touch id m' = u.touch id m' := by
  simp only [UpdatedAt.touch, Function.update_idem]

theorem UpdatedAt.touch_moved (u : UpdatedAt) (id : String) (change : Nat → Int) (m m' : Time) :
    (u.touch id m).moved change m' = (u.moved change m').touch id m := rfl

/-! ## Reads -/

def Database.transfer? (db : Database) (id : String) : Option Transfer :=
  Table.lookup Transfer.id id db.transfers

def Database.account? (db : Database) (id : Nat) : Option Account :=
  Table.lookup Account.id id db.accounts

def Database.program? (db : Database) (id : Nat) : Option Program :=
  Table.lookup Program.id id db.programs

/-- The transfer a user's idempotency key created, if it did. -/
def Database.transferByKey? (db : Database) (userId key : String) : Option Transfer :=
  db.transfers.find? fun t => decide (t.userId = userId ∧ t.idempotencyKey = key)

/-! ## What the `transfers` columns accept -/

/-- The Crockford base 32 alphabet. -/
def crockfordBase32 : List Char := "0123456789ABCDEFGHJKMNPQRSTVWXYZ".toList

/-- `id ~ '^tr_[0-9A-HJKMNP-TV-Z]{26}$'`. -/
def transferIdFormat (id : String) : Bool :=
  match id.toList with
  | 't' :: 'r' :: '_' :: ulid => ulid.length == 26 && ulid.all fun c => crockfordBase32.contains c
  | _ => false

/-- A text that a `VARCHAR(n)` column stores: at most `n` characters, none of
them NUL, which PostgreSQL text cannot hold. -/
def fitsVarchar (n : Nat) (s : String) : Bool :=
  decide (s.length ≤ n) && !s.toList.contains '\x00'

mutual
/-- A value that a `JSONB` column stores: no string in it holds NUL. -/
def fitsJsonb : Json.Value → Bool
  | .str s => !s.toList.contains '\x00'
  | .arr xs => fitsJsonbList xs
  | .obj fields => fitsJsonbFields fields
  | _ => true
def fitsJsonbList : List Json.Value → Bool
  | [] => true
  | v :: vs => fitsJsonb v && fitsJsonbList vs
def fitsJsonbFields : List (String × Json.Value) → Bool
  | [] => true
  | (k, v) :: fs => !k.toList.contains '\x00' && fitsJsonb v && fitsJsonbFields fs
end

/-- The largest value of an `INTEGER` column. -/
def maxInteger : Int := 2147483647

/-- The largest value of a `BIGINT` column. -/
def maxBigint : Int := 9223372036854775807

def fitsBigint (n : Int) : Bool := decide (-maxBigint - 1 ≤ n) && decide (n ≤ maxBigint)

theorem fitsBigint_iff {n : Int} : fitsBigint n = true ↔ -maxBigint - 1 ≤ n ∧ n ≤ maxBigint := by
  simp [fitsBigint]

/-- The amounts of the row, each a `BIGINT`. -/
def Transfer.points (t : Transfer) : List Int :=
  [t.sourcePoints, t.basePoints, t.bonusPoints, t.destinationPoints]

/-- The first column of the row that does not take its value. -/
def Transfer.unfitColumn (t : Transfer) : Option Column :=
  if !fitsVarchar 40 t.id then some .id
  else if !fitsVarchar 255 t.idempotencyKey then some .idempotencyKey
  else if !(t.points.all fitsBigint) then some .points
  else if !(t.failureMessage.all (fitsVarchar 500)) then some .failureMessage
  else if !(t.partnerReference.all (fitsVarchar 64)) then some .partnerReference
  else if !(t.partnerConfirmationId.all (fitsVarchar 128)) then some .partnerConfirmationId
  else if ¬ t.verificationAttempts ≤ maxInteger then some .verificationAttempts
  else none

/-- The first CHECK of the table, by name, that the row violates. -/
def Transfer.violatedCheck (t : Transfer) : Option Constraint :=
  if ¬ 0 ≤ t.basePoints then some .ckTransfersBasePointsNonNegative
  else if ¬ 0 ≤ t.bonusPoints then some .ckTransfersBonusPointsNonNegative
  else if t.status = .completed ∧ t.partnerConfirmationId = none then
    some .ckTransfersCompletedHasConfirmation
  else if ¬ 0 < t.destinationPoints then some .ckTransfersDestinationPointsPositive
  else if t.destinationPoints ≠ t.basePoints + t.bonusPoints then
    some .ckTransfersDestinationPointsSum
  else if t.sourceProgramId = t.destinationProgramId then some .ckTransfersDistinctPrograms
  else if (decide (t.status ∈ finalStatuses)) ≠ t.completedAt.isSome then
    some .ckTransfersFinalHasCompletedAt
  else if !transferIdFormat t.id then some .ckTransfersIdFormat
  else if t.status = .reversed ∧ t.failureCode = none then
    some .ckTransfersReversedHasFailureCode
  else if ¬ 0 < t.sourcePoints then some .ckTransfersSourcePointsPositive
  else if ¬ 0 ≤ t.verificationAttempts then some .ckTransfersVerificationAttemptsNonNegative
  else none

/-- The row, if its columns take it and its CHECKs hold. -/
def Transfer.checked (t : Transfer) : Except Fault Unit :=
  match t.unfitColumn with
  | some c => .error (.data c)
  | none =>
      match t.violatedCheck with
      | some c => .error (.integrity c)
      | none => .ok ()

/-- Is there an account `id` in program `programId`: the target of the
composite foreign keys. -/
def Database.hasAccount (db : Database) (id programId : Nat) : Bool :=
  db.accounts.any fun a => decide (a.id = id ∧ a.programId = programId)

/-! ## Writes -/

/-- The start of a transaction at `moment` of PostgreSQL's clock. -/
def beginAt (moment : Time) : DbTx Unit := do
  let db ← get
  set { db with clock := moment }

/-- `INSERT INTO transfers`. -/
def insertTransfer (t : Transfer) : DbTx Unit := do
  let db ← get
  Tx.ofExcept t.checked
  Tx.failIf (∃ x ∈ db.transfers, x.id = t.id) (.integrity .pkTransfers)
  Tx.failIf (t.partnerReference.isSome ∧
      ∃ x ∈ db.transfers, x.partnerReference = t.partnerReference)
    (.integrity .uqTransfersPartnerReference)
  Tx.failIf (∃ x ∈ db.transfers, x.userId = t.userId ∧ x.idempotencyKey = t.idempotencyKey)
    (.integrity .uqTransfersUserIdempotencyKey)
  Tx.failIf (db.hasAccount t.destinationAccountId t.destinationProgramId = false)
    (.integrity .fkTransfersDestinationAccountProgram)
  Tx.failIf (¬ ∃ r ∈ db.conversionRates, r.id = t.rateId) (.integrity .fkTransfersRateId)
  Tx.failIf (db.hasAccount t.sourceAccountId t.sourceProgramId = false)
    (.integrity .fkTransfersSourceAccountProgram)
  Tx.failIf (t.userId ∉ db.users) (.integrity .fkTransfersUserId)
  set { db with
    transfers := db.transfers ++ [t]
    updatedAt := db.updatedAt.touch t.id db.clock }

/-- `INSERT INTO transfer_events`. -/
def insertEvents (events : List AuditEvent) : DbTx Unit := do
  let db ← get
  Tx.failIf (∃ e ∈ events, fitsJsonbFields e.metadata = false) (.data .eventMetadata)
  set { db with transferEvents := db.transferEvents ++ events.map (AuditEvent.insertedAt db.clock) }

/-- `updated_at` once the row `t` is flushed.  The UPDATE sets the columns with a new
value: the `moment` a status change gave, if it is one; else, if any other column has
one, `onupdate` gives `now()`. -/
def Database.flushedAt (db : Database) (t : Transfer) (moment : Option Time) : Time :=
  let old := db.updatedAt.transfers t.id
  if moment.getD old ≠ old then moment.getD old
  else if db.transfer? t.id = some t then old
  else db.clock

/-- The flush at the end of a transaction that changed the transfer `t`: the
row is written back and its new events are inserted. -/
def saveTransfer (t : Transfer) (events : List AuditEvent) (moment : Option Time) : DbTx Unit := do
  let db ← get
  Tx.ofExcept t.checked
  set { db with
    transfers := Table.replace Transfer.id t db.transfers
    updatedAt := db.updatedAt.touch t.id (db.flushedAt t moment) }
  insertEvents events

/-! ## What a write leaves -/

/-- The state once `saveTransfer` wrote the row and its events. -/
def saved (db : Database) (t : Transfer) (events : List TransferEvent) (moment : Option Time) :
    Database :=
  { db with
    transfers := Table.replace Transfer.id t db.transfers
    transferEvents := db.transferEvents ++ events
    updatedAt := db.updatedAt.touch t.id (db.flushedAt t moment) }

/-- The row can be inserted: it passes its own checks, collides with no other
row and names rows that exist. -/
structure Insertable (db : Database) (t : Transfer) : Prop where
  checked : t.checked = .ok ()
  id : ∀ x ∈ db.transfers, x.id ≠ t.id
  partnerReference : t.partnerReference.isSome →
    ∀ x ∈ db.transfers, x.partnerReference ≠ t.partnerReference
  key : ∀ x ∈ db.transfers, ¬ (x.userId = t.userId ∧ x.idempotencyKey = t.idempotencyKey)
  destination : db.hasAccount t.destinationAccountId t.destinationProgramId = true
  rate : ∃ r ∈ db.conversionRates, r.id = t.rateId
  source : db.hasAccount t.sourceAccountId t.sourceProgramId = true
  user : t.userId ∈ db.users

/-- What can be inserted does not depend on the clock. -/
theorem Insertable.of_clock {db : Database} {t : Transfer} {moment : Time}
    (h : Insertable { db with clock := moment } t) : Insertable db t :=
  ⟨h.checked, h.id, h.partnerReference, h.key, h.destination, h.rate, h.source, h.user⟩

theorem beginAt_ok {db db' : Database} {moment : Time} {u : Unit} :
    (beginAt moment).run db = .ok (u, db') ↔ db' = { db with clock := moment } := by
  simp only [beginAt, Tx.bind_ok, Tx.get_ok, Tx.set_ok]
  constructor
  · rintro ⟨_, _, e₁, e₂⟩
    cases e₁; cases e₂
    rfl
  · rintro rfl
    exact ⟨_, _, rfl, rfl⟩

theorem insertTransfer_ok {db db' : Database} {t : Transfer} {u : Unit} :
    (insertTransfer t).run db = .ok (u, db') ↔
      Insertable db t ∧ db' = { db with
        transfers := db.transfers ++ [t]
        updatedAt := db.updatedAt.touch t.id db.clock } := by
  simp only [insertTransfer, Tx.bind_ok, Tx.get_ok, Tx.ofExcept_ok, Tx.failIf_ok, Tx.set_ok]
  constructor
  · rintro ⟨_, _, e₁, _, _, ⟨_, h₁, e₂⟩, _, _, ⟨h₂, e₃⟩, _, _, ⟨h₃, e₄⟩, _, _, ⟨h₄, e₅⟩, _, _,
      ⟨h₅, e₆⟩, _, _, ⟨h₆, e₇⟩, _, _, ⟨h₇, e₈⟩, _, _, ⟨h₈, e₉⟩, e₁₀⟩
    cases e₁; cases e₂; cases e₃; cases e₄; cases e₅; cases e₆; cases e₇; cases e₈; cases e₉
    cases e₁₀
    exact ⟨⟨h₁, fun x hx hid => h₂ ⟨x, hx, hid⟩, fun hs x hx hp => h₃ ⟨hs, x, hx, hp⟩,
      fun x hx hk => h₄ ⟨x, hx, hk⟩, by simpa using h₅, not_not.mp h₆, by simpa using h₇,
      not_not.mp h₈⟩, rfl⟩
  · rintro ⟨h, rfl⟩
    refine ⟨db, db, rfl, (), db, ⟨(), h.checked, rfl⟩, (), db, ⟨?_, rfl⟩, (), db, ⟨?_, rfl⟩,
      (), db, ⟨?_, rfl⟩, (), db, ⟨?_, rfl⟩, (), db, ⟨not_not.mpr h.rate, rfl⟩, (), db,
      ⟨?_, rfl⟩, (), db, ⟨not_not.mpr h.user, rfl⟩, rfl⟩
    · rintro ⟨x, hx, hid⟩; exact h.id x hx hid
    · rintro ⟨hs, x, hx, hp⟩; exact h.partnerReference hs x hx hp
    · rintro ⟨x, hx, hk⟩; exact h.key x hx hk
    · simp [h.destination]
    · simp [h.source]

theorem insertEvents_ok {db db' : Database} {events : List AuditEvent} {u : Unit} :
    (insertEvents events).run db = .ok (u, db') ↔
      (∀ e ∈ events, fitsJsonbFields e.metadata = true) ∧
        db' = { db with
          transferEvents := db.transferEvents ++ events.map (AuditEvent.insertedAt db.clock) } := by
  simp only [insertEvents, Tx.bind_ok, Tx.get_ok, Tx.failIf_ok, Tx.set_ok]
  constructor
  · rintro ⟨_, _, e₁, _, _, ⟨h, e₂⟩, e₃⟩
    cases e₁; cases e₂; cases e₃
    refine ⟨fun e he => ?_, rfl⟩
    by_contra hno
    exact h ⟨e, he, by simpa using hno⟩
  · rintro ⟨h, rfl⟩
    refine ⟨db, db, rfl, (), db, ⟨?_, rfl⟩, rfl⟩
    rintro ⟨e, he, hno⟩
    rw [h e he] at hno
    cases hno

theorem saveTransfer_ok {db db' : Database} {t : Transfer} {events : List AuditEvent}
    {moment : Option Time} {u : Unit} :
    (saveTransfer t events moment).run db = .ok (u, db') ↔
      t.checked = .ok () ∧ (∀ e ∈ events, fitsJsonbFields e.metadata = true) ∧
        db' = saved db t (events.map (AuditEvent.insertedAt db.clock)) moment := by
  simp only [saveTransfer, Tx.bind_ok, Tx.get_ok, Tx.ofExcept_ok, Tx.set_ok, insertEvents_ok]
  constructor
  · rintro ⟨_, _, e₁, _, _, ⟨_, h, e₂⟩, _, _, e₃, hev, rfl⟩
    cases e₁; cases e₂; cases e₃
    exact ⟨h, hev, rfl⟩
  · rintro ⟨h, hev, rfl⟩
    exact ⟨db, db, rfl, (), db, ⟨(), h, rfl⟩, ⟨⟩, _, rfl, hev, rfl⟩

/-- In the transaction that inserted the row, `now()` is its `created_at` and its
`updated_at`: what a status change sets is there whatever it is. -/
theorem flushedAt_created {db : Database} {t : Transfer} {moment : Time}
    (hupdated : db.updatedAt.transfers t.id = db.clock) :
    db.flushedAt t (some moment) = moment := by
  simp only [Database.flushedAt, Option.getD_some, hupdated, ite_self]
  by_cases h : moment = db.clock <;> simp [h]

/-- A check that reports nothing is passed, and so are the ones after it. -/
theorem ite_some_eq_none {α : Type} {p : Prop} [Decidable p] {a : α} {rest : Option α} :
    (if p then some a else rest) = none ↔ ¬ p ∧ rest = none := by
  by_cases h : p <;> simp [h]

theorem checked_ok {t : Transfer} :
    t.checked = .ok () ↔ t.unfitColumn = none ∧ t.violatedCheck = none := by
  simp only [Transfer.checked]
  cases t.unfitColumn with
  | some c => simp
  | none => cases t.violatedCheck <;> simp

/-- What the columns and the CHECKs of `transfers` say of a row. -/
structure Transfer.Valid (t : Transfer) : Prop where
  idFits : fitsVarchar 40 t.id = true
  keyFits : fitsVarchar 255 t.idempotencyKey = true
  pointsFit : t.points.all fitsBigint = true
  messageFits : t.failureMessage.all (fitsVarchar 500) = true
  referenceFits : t.partnerReference.all (fitsVarchar 64) = true
  confirmationFits : t.partnerConfirmationId.all (fitsVarchar 128) = true
  attemptsFit : t.verificationAttempts ≤ maxInteger
  basePoints : 0 ≤ t.basePoints
  bonusPoints : 0 ≤ t.bonusPoints
  confirmed : ¬ (t.status = .completed ∧ t.partnerConfirmationId = none)
  destinationPoints : 0 < t.destinationPoints
  sum : t.destinationPoints = t.basePoints + t.bonusPoints
  programs : t.sourceProgramId ≠ t.destinationProgramId
  completedAt : decide (t.status ∈ finalStatuses) = t.completedAt.isSome
  idFormat : transferIdFormat t.id = true
  failed : ¬ (t.status = .reversed ∧ t.failureCode = none)
  sourcePoints : 0 < t.sourcePoints
  attempts : 0 ≤ t.verificationAttempts

theorem checked_iff {t : Transfer} : t.checked = .ok () ↔ t.Valid := by
  rw [checked_ok]
  simp only [Transfer.unfitColumn, Transfer.violatedCheck, ite_some_eq_none, not_not,
    Bool.not_eq_true', Bool.not_eq_false, ne_eq, and_true]
  constructor
  · rintro ⟨⟨h₁, h₂, h₀, h₃, h₄, h₅, h₆⟩, h₇, h₈, h₉, h₁₀, h₁₁, h₁₂, h₁₃, h₁₄, h₁₅, h₁₆, h₁₇⟩
    exact ⟨h₁, h₂, h₀, h₃, h₄, h₅, h₆, h₇, h₈, h₉, h₁₀, h₁₁, h₁₂, h₁₃, h₁₄, h₁₅, h₁₆, h₁₇⟩
  · rintro ⟨h₁, h₂, h₀, h₃, h₄, h₅, h₆, h₇, h₈, h₉, h₁₀, h₁₁, h₁₂, h₁₃, h₁₄, h₁₅, h₁₆, h₁₇⟩
    exact ⟨⟨h₁, h₂, h₀, h₃, h₄, h₅, h₆⟩, h₇, h₈, h₉, h₁₀, h₁₁, h₁₂, h₁₃, h₁₄, h₁₅, h₁₆, h₁₇⟩

/-- A row that passed its checks has positive amounts. -/
theorem checked_positive {t : Transfer} (h : t.checked = .ok ()) :
    0 < t.sourcePoints ∧ 0 < t.destinationPoints :=
  ⟨(checked_iff.mp h).sourcePoints, (checked_iff.mp h).destinationPoints⟩

end LoyaltyTransfer
