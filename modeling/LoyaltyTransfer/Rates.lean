/-
# `LoyaltyTransfer.Rates` — pricing a transfer

`app/services/rate_engine.py`, the pure conversion calculation with every check
it makes, and `app/services/rate_repository.py`, the query that loads a route.

Integer arithmetic only.  For a rate `numerator / denominator`

    base  = floor (source_points * numerator / denominator)
    bonus = floor (base * bonus_bps / 10000)      if a bonus is active
    destination = base + bonus

A Python `//` rounds towards minus infinity and `%` takes the sign of the
divisor: `Int.fdiv` and `Int.fmod`.
-/
import LoyaltyTransfer.Schema

namespace LoyaltyTransfer

open Transaction

/-! ## Value objects -/

def bpsDenominator : Int := 10000

structure ProgramRef where
  id : Nat
  code : String
  active : Bool
  deriving DecidableEq

structure RateRule where
  rateId : Nat
  version : Int
  numerator : Int
  denominator : Int
  minSourcePoints : Int
  sourceIncrement : Int
  maxSourcePoints : Option Int
  effectiveTo : Option Time
  deriving DecidableEq

structure BonusRule where
  bonusId : Nat
  bonusBps : Int
  startsAt : Time
  endsAt : Time
  deriving DecidableEq

def BonusRule.appliesAt (b : BonusRule) (now : Time) : Bool :=
  decide (b.startsAt ≤ now) && decide (now < b.endsAt)

/-- Everything needed to price a route at a moment in time. -/
structure RouteConfig where
  source : ProgramRef
  destination : ProgramRef
  rate : Option RateRule
  bonus : Option BonusRule
  validUntil : Option Time
  deriving DecidableEq

structure Conversion where
  sourcePoints : Int
  basePoints : Int
  bonusPoints : Int
  destinationPoints : Int
  snapshot : RateSnapshot
  deriving DecidableEq

/-! ## The calculation -/

/-- Convert `sourcePoints` under `rate`, and under `bonus` if it is active. -/
def calculateConversion (rate : RateRule) (sourcePoints : Int) (bonus : Option BonusRule)
    (now : Time) : Except DomainError Conversion := do
  if sourcePoints < rate.minSourcePoints then
    throw {
      code := .belowMinimum
      detail := s!"Minimum transfer for this route is {rate.minSourcePoints} points."
      extra := [("min_source_points", .int rate.minSourcePoints)] }
  if let some most := rate.maxSourcePoints then
    if most < sourcePoints then
      throw {
        code := .aboveMaximum
        detail := s!"Maximum transfer for this route is {most} points."
        extra := [("max_source_points", .int most)] }
  if sourcePoints.fmod rate.sourceIncrement ≠ 0 then
    throw {
      code := .invalidIncrement
      detail := s!"Points must be a multiple of {rate.sourceIncrement} for this route."
      extra := [("source_increment", .int rate.sourceIncrement)] }
  let basePoints := (sourcePoints * rate.numerator).fdiv rate.denominator
  let applied := bonus.filter fun b => b.appliesAt now
  let bonusPoints := match applied with
    | some b => (basePoints * b.bonusBps).fdiv bpsDenominator
    | none => 0
  let destinationPoints := basePoints + bonusPoints
  if destinationPoints = 0 then
    throw {
      code := .zeroDestinationPoints
      detail := "This amount converts to zero destination points." }
  pure {
    sourcePoints, basePoints, bonusPoints, destinationPoints
    snapshot := {
      rateId := rate.rateId
      version := rate.version
      numerator := rate.numerator
      denominator := rate.denominator
      bonusId := applied.map BonusRule.bonusId
      bonusBps := applied.map BonusRule.bonusBps } }

/-- The check `ensureRouteUsable` makes of each of its two programs. -/
def ensureProgramActive (program : ProgramRef) : Except DomainError Unit :=
  if program.active then pure ()
  else throw {
    code := .programInactive
    detail := s!"Program {program.code} is not accepting transfers."
    extra := [("program", .str program.code)] }

/-- The rate to use on the route. -/
def ensureRouteUsable (route : RouteConfig) : Except DomainError RateRule := do
  ensureProgramActive route.source
  ensureProgramActive route.destination
  match route.rate with
  | none => throw {
      code := .routeNotSupported
      detail :=
        s!"Transfers from {route.source.code} to {route.destination.code} are not supported."
      extra := [("source_program", .str route.source.code),
        ("destination_program", .str route.destination.code)] }
  | some rate => pure rate

/-- Platform-wide cap on a single transfer. -/
def ensureWithinPlatformLimit (sourcePoints : Int) (maxPoints : Option Int) :
    Except DomainError Unit :=
  match maxPoints with
  | some most =>
      if most < sourcePoints then throw {
        code := .aboveMaximum
        detail := s!"A single transfer may not exceed {most} points."
        extra := [("max_source_points", .int most)] }
      else pure ()
  | none => pure ()

def ensureDifferentPrograms (sourceCode destinationCode : String) : Except DomainError Unit :=
  if sourceCode = destinationCode then throw {
    code := .sameProgram
    detail := "Source and destination programs must be different." }
  else pure ()

/-! ## `rate_repository.py` -/

def Program.toRef (p : Program) : ProgramRef := ⟨p.id, p.code, p.active⟩

/-- `load_programs`, for one of its codes. -/
def Database.loadProgram (db : Database) (code : String) : Except DomainError ProgramRef :=
  match Table.lookup Program.code code db.programs with
  | some p => pure p.toRef
  | none => throw {
      code := .programNotFound
      detail := s!"Program {code} does not exist."
      extra := [("program", .str code)] }

def toRateRule (row : ConversionRate) : RateRule where
  rateId := row.id
  version := row.version
  numerator := row.numerator
  denominator := row.denominator
  minSourcePoints := row.minSourcePoints
  sourceIncrement := row.sourceIncrement
  maxSourcePoints := row.maxSourcePoints
  effectiveTo := row.effectiveTo

def TransferBonus.toRule (row : TransferBonus) : BonusRule :=
  ⟨row.id, row.bonusBps, row.startsAt, row.endsAt⟩

def ConversionRate.onRoute (r : ConversionRate) (sourceId destinationId : Nat) : Bool :=
  decide (r.sourceProgramId = sourceId ∧ r.destinationProgramId = destinationId)

def TransferBonus.onRoute (b : TransferBonus) (sourceId destinationId : Nat) : Bool :=
  decide (b.sourceProgramId = sourceId ∧ b.destinationProgramId = destinationId)

def ConversionRate.inForce (r : ConversionRate) (now : Time) : Bool :=
  r.active && decide (r.effectiveFrom ≤ now) && r.effectiveTo.all fun t => decide (now < t)

def TransferBonus.inForce (b : TransferBonus) (now : Time) : Bool :=
  decide (b.startsAt ≤ now) && decide (now < b.endsAt)

/-- The smallest of the known moments. -/
def earliest (moments : List Time) : Option Time := moments.min?

/-- `RateRepository.get_route`. -/
def Database.getRoute (db : Database) (sourceCode destinationCode : String) (now : Time) :
    Except DomainError RouteConfig := do
  let source ← db.loadProgram sourceCode
  let destination ← db.loadProgram destinationCode
  -- ORDER BY effective_from DESC LIMIT 1
  let rateRow := ((db.conversionRates.filter fun r =>
    r.onRoute source.id destination.id && r.inForce now).insertionSort
      fun a b => b.effectiveFrom ≤ a.effectiveFrom).head?
  let bonuses := db.transferBonuses.filter fun b => b.onRoute source.id destination.id
  let bonusRow := bonuses.find? fun b => b.inForce now
  let nextBonusStart :=
    earliest ((bonuses.filter fun b => decide (now < b.startsAt)).map TransferBonus.startsAt)
  let rate := rateRow.map toRateRule
  let bonus := bonusRow.map TransferBonus.toRule
  let boundaries := [rate.bind RateRule.effectiveTo, bonus.map BonusRule.endsAt, nextBonusStart]
  pure {
    source, destination, rate, bonus
    validUntil := earliest (boundaries.filterMap id) }

/-! ## What a successful pricing says -/

theorem calculateConversion_ok {rate : RateRule} {points : Int} {bonus : Option BonusRule}
    {now : Time} {c : Conversion} (h : calculateConversion rate points bonus now = .ok c) :
    c.sourcePoints = points := by
  simp only [calculateConversion, bind, Except.bind, pure, Except.pure, throw, throwThe,
    MonadExceptOf.throw] at h
  repeat' split at h
  all_goals first | cases h; rfl | cases h

theorem loadProgram_ok {db : Database} {code : String} {p : ProgramRef}
    (h : db.loadProgram code = .ok p) :
    ∃ row ∈ db.programs, row.code = code ∧ p = row.toRef := by
  simp only [Database.loadProgram] at h
  split at h
  · rename_i row hrow
    cases h
    exact ⟨row, Table.lookup_mem hrow, Table.lookup_key hrow, rfl⟩
  · cases h

/-- The two programs a route names are rows with the codes asked for. -/
theorem getRoute_ok {db : Database} {source destination : String} {now : Time}
    {route : RouteConfig} (h : db.getRoute source destination now = .ok route) :
    (∃ row ∈ db.programs, row.code = source ∧ route.source = row.toRef) ∧
      ∃ row ∈ db.programs, row.code = destination ∧ route.destination = row.toRef := by
  simp only [Database.getRoute, bind, Except.bind] at h
  cases hs : db.loadProgram source with
  | error e => rw [hs] at h; cases h
  | ok p =>
      cases hd : db.loadProgram destination with
      | error e => rw [hs, hd] at h; cases h
      | ok q =>
          rw [hs, hd] at h
          cases h
          exact ⟨loadProgram_ok hs, loadProgram_ok hd⟩

end LoyaltyTransfer
