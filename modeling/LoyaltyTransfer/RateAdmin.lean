/-
# `LoyaltyTransfer.RateAdmin` — versioned rates and time-bound bonuses

`app/services/rate_admin.py`.  Rates are never updated in place: creating a
rate for a route closes the current version and inserts the next one, with the
same instant as the end of the one and the start of the other, in one
transaction.  `changedAt` is what `clock_timestamp()` reads under the route's
advisory lock.
-/
import LoyaltyTransfer.Rates

namespace LoyaltyTransfer

open Transaction

structure NewRate where
  sourceProgram : String
  destinationProgram : String
  numerator : Int
  denominator : Int
  minSourcePoints : Int
  sourceIncrement : Int
  maxSourcePoints : Option Int
  deriving DecidableEq

structure NewBonus where
  sourceProgram : String
  destinationProgram : String
  bonusBps : Int
  startsAt : Time
  endsAt : Time
  deriving DecidableEq

/-- `_validate_rate`. -/
def validateRate (rate : NewRate) : Except DomainError Unit := do
  ensureDifferentPrograms rate.sourceProgram rate.destinationProgram
  if let some most := rate.maxSourcePoints then
    if most < rate.minSourcePoints then
      throw {
        code := .invalidRate
        detail := "max_source_points must be >= min_source_points." }
  if rate.minSourcePoints.fmod rate.sourceIncrement ≠ 0 then
    throw {
      code := .invalidRate
      detail := "min_source_points must be a multiple of source_increment." }

/-! ## What the two tables refuse -/

/-- The first CHECK of `conversion_rates`, by name, that the row violates. -/
def ConversionRate.violatedCheck (r : ConversionRate) : Option Constraint :=
  if ¬ 0 < r.denominator then some .ckConversionRatesDenominatorPositive
  else if r.sourceProgramId = r.destinationProgramId then some .ckConversionRatesDistinctPrograms
  else if r.effectiveTo.any fun t => decide (t ≤ r.effectiveFrom) then
    some .ckConversionRatesEffectiveWindowValid
  else if r.maxSourcePoints.any fun m => decide (m < r.minSourcePoints) then
    some .ckConversionRatesMaxNotBelowMin
  else if r.minSourcePoints < 1 then some .ckConversionRatesMinSourcePointsPositive
  else if ¬ 0 < r.numerator then some .ckConversionRatesNumeratorPositive
  else if r.sourceIncrement < 1 then some .ckConversionRatesSourceIncrementPositive
  else if r.version < 1 then some .ckConversionRatesVersionPositive
  else none

/-- The current version of a route: active and open. -/
def ConversionRate.isCurrent (r : ConversionRate) : Bool := r.active && r.effectiveTo.isNone

def ConversionRate.checked (r : ConversionRate) : Except Fault Unit :=
  match r.violatedCheck with
  | some c => .error (.integrity c)
  | none => .ok ()

/-- `UPDATE conversion_rates SET effective_to = changedAt WHERE id = current.id`. -/
def closeRate (current : ConversionRate) (changedAt : Time) : DbTx Unit := do
  let db ← get
  let closed := { current with effectiveTo := some changedAt }
  Tx.ofExcept closed.checked
  set { db with conversionRates := Table.replace ConversionRate.id closed db.conversionRates }

/-- Close the route's open version, when it has one. -/
def closeCurrent (current : Option ConversionRate) (changedAt : Time) : DbTx Unit :=
  match current with
  | some current => closeRate current changedAt
  | none => pure ()

/-- `INSERT INTO conversion_rates`. -/
def insertRate (r : ConversionRate) : DbTx Unit := do
  let db ← get
  Tx.ofExcept r.checked
  Tx.failIf (∃ x ∈ db.conversionRates,
      x.onRoute r.sourceProgramId r.destinationProgramId ∧ x.version = r.version)
    (.integrity .uqConversionRatesRouteVersion)
  Tx.failIf (r.isCurrent ∧ ∃ x ∈ db.conversionRates,
      x.onRoute r.sourceProgramId r.destinationProgramId ∧ x.isCurrent)
    (.integrity .uqConversionRatesRouteOpenVersion)
  set { db with conversionRates := db.conversionRates ++ [r] }

/-! ## The two operations -/

/-- `coalesce(max(version), 0)` over the route. -/
def latestVersion (rates : List ConversionRate) : Int :=
  (rates.map ConversionRate.version).foldl max 0

def createRateVersion (newRate : NewRate) (changedAt : Time) : DbTx ConversionRate := do
  Tx.ofExcept ((validateRate newRate).mapError Fault.domain)
  let db ← get
  let source ← Tx.ofExcept ((db.loadProgram newRate.sourceProgram).mapError Fault.domain)
  let destination ← Tx.ofExcept ((db.loadProgram newRate.destinationProgram).mapError Fault.domain)
  let route := db.conversionRates.filter fun r => r.onRoute source.id destination.id
  closeCurrent (route.find? fun r => r.isCurrent) changedAt
  let created : ConversionRate := {
    id := Table.nextId ConversionRate.id db.conversionRates
    sourceProgramId := source.id
    destinationProgramId := destination.id
    numerator := newRate.numerator
    denominator := newRate.denominator
    minSourcePoints := newRate.minSourcePoints
    sourceIncrement := newRate.sourceIncrement
    maxSourcePoints := newRate.maxSourcePoints
    version := latestVersion route + 1
    effectiveFrom := changedAt
    effectiveTo := none
    active := true }
  insertRate created
  pure created

/-- `INSERT INTO transfer_bonuses`; the exclusion constraint on overlapping
windows is reported as a business error. -/
def insertBonus (b : TransferBonus) : DbTx Unit := do
  let db ← get
  Tx.failIf (¬ (0 < b.bonusBps ∧ b.bonusBps ≤ 10000)) (.integrity .ckTransferBonusesBonusBpsRange)
  Tx.failIf (b.sourceProgramId = b.destinationProgramId)
    (.integrity .ckTransferBonusesDistinctPrograms)
  Tx.failIf (b.endsAt ≤ b.startsAt) (.integrity .ckTransferBonusesWindowValid)
  Tx.failIf (∃ x ∈ db.transferBonuses, x.onRoute b.sourceProgramId b.destinationProgramId ∧
      x.startsAt < b.endsAt ∧ b.startsAt < x.endsAt)
    (.domain {
      code := .bonusOverlap
      detail := "Another bonus on this route overlaps the requested period." })
  set { db with transferBonuses := db.transferBonuses ++ [b] }

def createBonus (newBonus : NewBonus) (now : Time) : DbTx TransferBonus := do
  Tx.ofExcept ((ensureDifferentPrograms newBonus.sourceProgram
    newBonus.destinationProgram).mapError Fault.domain)
  Tx.failIf (newBonus.endsAt ≤ newBonus.startsAt)
    (.domain { code := .invalidBonus, detail := "ends_at must be after starts_at." })
  Tx.failIf (newBonus.endsAt ≤ now)
    (.domain { code := .invalidBonus, detail := "ends_at must be in the future." })
  let db ← get
  let source ← Tx.ofExcept ((db.loadProgram newBonus.sourceProgram).mapError Fault.domain)
  let destination ← Tx.ofExcept
    ((db.loadProgram newBonus.destinationProgram).mapError Fault.domain)
  Tx.failIf (¬ ∃ r ∈ db.conversionRates, r.onRoute source.id destination.id ∧ r.isCurrent)
    (.domain {
      code := .routeNotSupported
      detail := "A bonus needs a supported route; create a rate for it first." })
  let bonus : TransferBonus := {
    id := Table.nextId TransferBonus.id db.transferBonuses
    sourceProgramId := source.id
    destinationProgramId := destination.id
    bonusBps := newBonus.bonusBps
    startsAt := newBonus.startsAt
    endsAt := newBonus.endsAt }
  insertBonus bonus
  pure bonus

/-! ## What they leave alone -/

/-- Two databases that differ at most in their rates and bonuses. -/
structure SameLedger (db db' : Database) : Prop where
  users : db'.users = db.users
  programs : db'.programs = db.programs
  accounts : db'.accounts = db.accounts
  transfers : db'.transfers = db.transfers
  transferEvents : db'.transferEvents = db.transferEvents
  ledgerJournals : db'.ledgerJournals = db.ledgerJournals
  ledgerEntries : db'.ledgerEntries = db.ledgerEntries
  updatedAt : db'.updatedAt = db.updatedAt

theorem SameLedger.refl (db : Database) : SameLedger db db :=
  ⟨rfl, rfl, rfl, rfl, rfl, rfl, rfl, rfl⟩

theorem SameLedger.trans {a b c : Database} (h : SameLedger a b) (h' : SameLedger b c) :
    SameLedger a c where
  users := h'.users.trans h.users
  programs := h'.programs.trans h.programs
  accounts := h'.accounts.trans h.accounts
  transfers := h'.transfers.trans h.transfers
  transferEvents := h'.transferEvents.trans h.transferEvents
  ledgerJournals := h'.ledgerJournals.trans h.ledgerJournals
  ledgerEntries := h'.ledgerEntries.trans h.ledgerEntries
  updatedAt := h'.updatedAt.trans h.updatedAt

theorem closeRate_sameLedger {db db' : Database} {current : ConversionRate} {changedAt : Time}
    {u : Unit} (h : (closeRate current changedAt).run db = .ok (u, db')) : SameLedger db db' := by
  simp only [closeRate, Tx.bind_ok, Tx.get_ok, Tx.ofExcept_ok, Tx.set_ok] at h
  obtain ⟨_, _, e₁, _, _, ⟨_, _, e₂⟩, e₃⟩ := h
  cases e₁; cases e₂; cases e₃
  exact ⟨rfl, rfl, rfl, rfl, rfl, rfl, rfl, rfl⟩

theorem closeCurrent_sameLedger {db db' : Database} {current : Option ConversionRate}
    {changedAt : Time} {u : Unit} (h : (closeCurrent current changedAt).run db = .ok (u, db')) :
    SameLedger db db' := by
  cases current with
  | none =>
      simp only [closeCurrent, Tx.pure_ok] at h
      cases h
      exact SameLedger.refl _
  | some current => exact closeRate_sameLedger h

theorem insertRate_sameLedger {db db' : Database} {r : ConversionRate} {u : Unit}
    (h : (insertRate r).run db = .ok (u, db')) : SameLedger db db' := by
  simp only [insertRate, Tx.bind_ok, Tx.get_ok, Tx.ofExcept_ok, Tx.failIf_ok, Tx.set_ok] at h
  obtain ⟨_, _, e₁, _, _, ⟨_, _, e₂⟩, _, _, ⟨_, e₃⟩, _, _, ⟨_, e₄⟩, e₅⟩ := h
  cases e₁; cases e₂; cases e₃; cases e₄; cases e₅
  exact ⟨rfl, rfl, rfl, rfl, rfl, rfl, rfl, rfl⟩

theorem createRateVersion_sameLedger {db db' : Database} {newRate : NewRate} {changedAt : Time}
    {r : ConversionRate} (h : (createRateVersion newRate changedAt).run db = .ok (r, db')) :
    SameLedger db db' := by
  simp only [createRateVersion, Tx.bind_ok, Tx.get_ok, Tx.ofExcept_ok, Tx.pure_ok] at h
  obtain ⟨_, _, ⟨_, _, e₁⟩, _, _, e₂, _, _, ⟨_, _, e₃⟩, _, _, ⟨_, _, e₄⟩, _, _, hclose, _, _,
    hins, e₅⟩ := h
  cases e₁; cases e₂; cases e₃; cases e₄; cases e₅
  exact (closeCurrent_sameLedger hclose).trans (insertRate_sameLedger hins)

theorem createBonus_ok {db db' : Database} {newBonus : NewBonus} {now : Time}
    {b : TransferBonus} (h : (createBonus newBonus now).run db = .ok (b, db')) :
    db' = { db with transferBonuses := db.transferBonuses ++ [b] } := by
  simp only [createBonus, insertBonus, Tx.bind_ok, Tx.get_ok, Tx.ofExcept_ok, Tx.failIf_ok,
    Tx.set_ok, Tx.pure_ok] at h
  obtain ⟨_, _, ⟨_, _, e₁⟩, _, _, ⟨_, e₂⟩, _, _, ⟨_, e₃⟩, _, _, e₄, _, _, ⟨_, _, e₅⟩, _, _,
    ⟨_, _, e₆⟩, _, _, ⟨_, e₇⟩, _, _, ⟨_, _, e₈, _, _, ⟨_, e₉⟩, _, _, ⟨_, e₁₀⟩, _, _, ⟨_, e₁₁⟩,
    _, _, ⟨_, e₁₂⟩, e₁₃⟩, e₁₄⟩ := h
  cases e₁; cases e₂; cases e₃; cases e₄; cases e₅; cases e₆; cases e₇
  cases e₈; cases e₉; cases e₁₀; cases e₁₁; cases e₁₂; cases e₁₃; cases e₁₄
  rfl

theorem createBonus_sameLedger {db db' : Database} {newBonus : NewBonus} {now : Time}
    {b : TransferBonus} (h : (createBonus newBonus now).run db = .ok (b, db')) :
    SameLedger db db' := by
  rw [createBonus_ok h]
  exact ⟨rfl, rfl, rfl, rfl, rfl, rfl, rfl, rfl⟩

/-- The rates are as they were, or one replacement committed. -/
inductive Repriced (db db' : Database) : Prop
  | same (h : db'.conversionRates = db.conversionRates)
  | version {newRate : NewRate} {changedAt : Time} {r : ConversionRate}
      (h : (createRateVersion newRate changedAt).run db = .ok (r, db'))

end LoyaltyTransfer
