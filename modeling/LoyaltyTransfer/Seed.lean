/-
# `LoyaltyTransfer.Seed` — the database a deployment starts from

`scripts/seed.py`: programs, system accounts, rates, bonuses and demo users.
Every step inserts only what is missing, and counts it in a report: a row is
inserted by `INSERT … ON CONFLICT DO NOTHING RETURNING` for programs, users and
accounts; for rates and bonuses the routes that have any history are read once,
before the loop.  Opening balances are never written directly: each is posted
through the ledger as a balanced SEED journal.

**Proved here.**  `seedDb_seeded`: what the script leaves in an empty database
is a seeded database in the sense of `Conservation`.
-/
import LoyaltyTransfer.Conservation
import LoyaltyTransfer.Lib.Moves

namespace LoyaltyTransfer

open Transaction

structure ProgramSeed where
  code : String
  name : String
  type : ProgramType
  partnerCode : String

structure RateSeed where
  source : String
  destination : String
  numerator : Int
  denominator : Int
  minSourcePoints : Int
  sourceIncrement : Int
  maxSourcePoints : Option Int

structure BonusSeed where
  source : String
  destination : String
  bonusBps : Int
  duration : Time

/-- A demo user: program code, opening balance and member id of each account. -/
structure UserSeed where
  userId : String
  accounts : List (String × Int × String)

/-- `PROGRAMS`. -/
def programSeeds : List ProgramSeed :=
  [⟨"NOVA_REWARDS", "Nova Rewards", .card, "NOVA"⟩,
    ⟨"ZENITH_POINTS", "Zenith Points", .card, "ZENITH"⟩,
    ⟨"SKYWARD_MILES", "Skyward Miles", .loyalty, "SKYWARD"⟩,
    ⟨"STAYWELL_POINTS", "Staywell Points", .loyalty, "STAYWELL"⟩,
    ⟨"HARBOR_CRUISE_POINTS", "Harbor Cruise Points", .loyalty, "HARBOR"⟩]

/-- `RATES`. -/
def rateSeeds : List RateSeed :=
  [⟨"NOVA_REWARDS", "SKYWARD_MILES", 1, 1, 1000, 1000, some 500000⟩,
    ⟨"NOVA_REWARDS", "STAYWELL_POINTS", 2, 1, 1000, 1000, some 500000⟩,
    ⟨"ZENITH_POINTS", "SKYWARD_MILES", 1, 1, 1000, 1000, some 500000⟩,
    ⟨"ZENITH_POINTS", "HARBOR_CRUISE_POINTS", 2, 3, 5000, 1000, some 300000⟩,
    ⟨"SKYWARD_MILES", "NOVA_REWARDS", 1, 3, 3000, 3000, some 300000⟩,
    ⟨"STAYWELL_POINTS", "NOVA_REWARDS", 1, 5, 5000, 5000, some 500000⟩]

/-- `BONUSES`. -/
def bonusSeeds : List BonusSeed := [⟨"NOVA_REWARDS", "SKYWARD_MILES", 2500, 30 * 86400⟩]

/-- `USERS`. -/
def userSeeds : List UserSeed :=
  [⟨"user_alice",
      [("NOVA_REWARDS", 250000, "NOVA-4410-7730-0001"), ("ZENITH_POINTS", 120000, "ZEN-5521-0001"),
        ("SKYWARD_MILES", 45000, "SKY100200301"), ("STAYWELL_POINTS", 80000, "SW-8812-0001"),
        ("HARBOR_CRUISE_POINTS", 20000, "HCP-3001-0001")]⟩,
    ⟨"user_bob",
      [("NOVA_REWARDS", 50000, "NOVA-4410-7730-0002"), ("ZENITH_POINTS", 300000, "ZEN-5521-0002"),
        ("SKYWARD_MILES", 150000, "SKY100200302"), ("STAYWELL_POINTS", 10000, "SW-8812-0002"),
        ("HARBOR_CRUISE_POINTS", 60000, "HCP-3001-0002")]⟩]

namespace Seeding

open Transaction Transaction.Tx

/-! ## The report -/

/-- `report.created`. -/
@[ext] structure SeedReport where
  programs : Nat
  systemAccounts : Nat
  rates : Nat
  bonuses : Nat
  users : Nat
  userAccounts : Nat
  deriving DecidableEq

instance : Zero SeedReport := ⟨⟨0, 0, 0, 0, 0, 0⟩⟩

instance : Add SeedReport where
  add a b := ⟨a.programs + b.programs, a.systemAccounts + b.systemAccounts, a.rates + b.rates,
    a.bonuses + b.bonuses, a.users + b.users, a.userAccounts + b.userAccounts⟩

theorem SeedReport.add_def (a b : SeedReport) : a + b =
    ⟨a.programs + b.programs, a.systemAccounts + b.systemAccounts, a.rates + b.rates,
      a.bonuses + b.bonuses, a.users + b.users, a.userAccounts + b.userAccounts⟩ := rfl

theorem SeedReport.zero_def : (0 : SeedReport) = ⟨0, 0, 0, 0, 0, 0⟩ := rfl

instance : AddMonoid SeedReport where
  add_assoc a b c := by simp only [SeedReport.add_def, Nat.add_assoc]
  zero_add a := by simp only [SeedReport.add_def, SeedReport.zero_def, Nat.zero_add]
  add_zero a := by simp only [SeedReport.add_def, SeedReport.zero_def, Nat.add_zero]
  nsmul := nsmulRec

/-- `report.created[…] += 1`. -/
def SeedReport.program : SeedReport := ⟨1, 0, 0, 0, 0, 0⟩
def SeedReport.systemAccount : SeedReport := ⟨0, 1, 0, 0, 0, 0⟩
def SeedReport.rate : SeedReport := ⟨0, 0, 1, 0, 0, 0⟩
def SeedReport.bonus : SeedReport := ⟨0, 0, 0, 1, 0, 0⟩
def SeedReport.user : SeedReport := ⟨0, 0, 0, 0, 1, 0⟩
def SeedReport.userAccount : SeedReport := ⟨0, 0, 0, 0, 0, 1⟩

/-! ## The script -/

inductive SeedFault where
  | database (f : Fault)
  | uqAccountsProgramExternalMember

abbrev SeedTx := Tx Database SeedFault

/-- `INSERT … ON CONFLICT DO NOTHING RETURNING`, with what a new row adds to the
report. -/
def insertMissing (present : Database → Bool) (row : SeedTx Unit) (created : SeedReport) :
    SeedTx SeedReport := do
  let db ← get
  if present db then pure 0
  else do
    row
    pure created

def insertProgram (p : ProgramSeed) : SeedTx Unit := do
  let db ← get
  set { db with
    programs := db.programs ++
      [Program.mk (Table.nextId Program.id db.programs) p.code p.name p.type p.partnerCode true] }

def insertUser (userId : String) : SeedTx Unit := do
  let db ← get
  set { db with users := db.users ++ [userId] }

/-- `INSERT INTO accounts`, with the balance that the column defaults to. -/
def insertAccount (ownerType : OwnerType) (userId : Option String) (programId : Nat)
    (accountType : AccountType) (externalMemberId : Option String) : SeedTx Nat := do
  let db ← get
  failIf (externalMemberId.isSome ∧ ∃ a ∈ db.accounts,
      a.programId = programId ∧ a.externalMemberId = externalMemberId)
    .uqAccountsProgramExternalMember
  let id := Table.nextId Account.id db.accounts
  set { db with accounts := db.accounts ++
    [Account.mk id ownerType userId programId accountType externalMemberId 0] }
  pure id

/-- `program_ids`. -/
def programIds (db : Database) : List (String × Nat) := db.programs.map fun p => (p.code, p.id)

def idUnder? (ids : List (String × Nat)) (code : String) : Option Nat :=
  (Table.lookup Prod.fst code ids).map Prod.snd

/-- `program_ids[code]`. -/
def idUnder (ids : List (String × Nat)) (code : String) : SeedTx Nat :=
  ofOption (idUnder? ids code) (.database (.lookup code))

/-- `_seed_programs`. -/
def seedPrograms : SeedTx SeedReport :=
  sumEach (fun p : ProgramSeed =>
    insertMissing (fun db => db.programs.any fun x => x.code == p.code) (insertProgram p) .program)
    programSeeds

/-- The two system accounts of every program there is. -/
def systemAccountKeys (ids : List (String × Nat)) : List (Nat × AccountType) :=
  ids.flatMap fun p => [(p.2, .transferClearing), (p.2, .partnerSettlement)]

/-- The loop of `_seed_system_accounts`. -/
def seedSystemAccounts (ids : List (String × Nat)) : SeedTx SeedReport :=
  sumEach (fun k : Nat × AccountType =>
    insertMissing (fun db => (db.systemAccount? k.1 k.2).isSome)
      (do let _ ← insertAccount .system none k.1 k.2 none) .systemAccount)
    (systemAccountKeys ids)

/-- `settlement_by_program_id`. -/
def settlementOf? (db : Database) (programId : Nat) : Option Nat :=
  ((db.accounts.filter fun a => decide (a.accountType = .partnerSettlement)).find? fun a =>
    decide (a.programId = programId)).map Account.id

/-- What `_seed_system_accounts` returns: a program without a settlement account is a
KeyError. -/
def settlementIds (ids : List (String × Nat)) : SeedTx (List (String × Nat)) := do
  let db ← get
  failIf (∃ p ∈ ids, settlementOf? db p.2 = none) (.database (.lookup "PARTNER_SETTLEMENT"))
  pure (ids.filterMap fun p => (settlementOf? db p.2).map fun id => (p.1, id))

/-- A round of the two loops over routes: `row` for a route that has no history. -/
def seedRoute (ids : List (String × Nat)) (existingRoutes : List (Nat × Nat))
    (source destination : String) (row : Nat → Nat → SeedTx Unit) (created : SeedReport) :
    SeedTx SeedReport := do
  let sourceId ← idUnder ids source
  let destinationId ← idUnder ids destination
  if (sourceId, destinationId) ∈ existingRoutes then pure 0
  else do
    row sourceId destinationId
    pure created

/-- Version 1 of a route. -/
def firstRate (now : Time) (rate : RateSeed) (source destination : Nat) : SeedTx Unit := do
  let db ← get
  mapFault .database (insertRate {
    id := Table.nextId ConversionRate.id db.conversionRates
    sourceProgramId := source
    destinationProgramId := destination
    numerator := rate.numerator
    denominator := rate.denominator
    minSourcePoints := rate.minSourcePoints
    sourceIncrement := rate.sourceIncrement
    maxSourcePoints := rate.maxSourcePoints
    version := 1
    effectiveFrom := now
    effectiveTo := none
    active := true })

def seedRate (ids : List (String × Nat)) (existingRoutes : List (Nat × Nat)) (now : Time)
    (rate : RateSeed) : SeedTx SeedReport :=
  seedRoute ids existingRoutes rate.source rate.destination (firstRate now rate) .rate

/-- `_seed_rates`. -/
def seedRates (ids : List (String × Nat)) (now : Time) : SeedTx SeedReport := do
  let db ← get
  let existingRoutes := db.conversionRates.map fun r => (r.sourceProgramId, r.destinationProgramId)
  sumEach (seedRate ids existingRoutes now) rateSeeds

/-- The first bonus of a route. -/
def firstBonus (now : Time) (bonus : BonusSeed) (source destination : Nat) : SeedTx Unit := do
  let db ← get
  let endsAt ← mapFault .database (Tx.ofExcept (dateAdd now bonus.duration))
  mapFault .database (insertBonus {
    id := Table.nextId TransferBonus.id db.transferBonuses
    sourceProgramId := source
    destinationProgramId := destination
    bonusBps := bonus.bonusBps
    startsAt := now
    endsAt := endsAt })

def seedBonus (ids : List (String × Nat)) (existingRoutes : List (Nat × Nat)) (now : Time)
    (bonus : BonusSeed) : SeedTx SeedReport :=
  seedRoute ids existingRoutes bonus.source bonus.destination (firstBonus now bonus) .bonus

/-- `_seed_bonuses`. -/
def seedBonuses (ids : List (String × Nat)) (now : Time) : SeedTx SeedReport := do
  let db ← get
  let existingRoutes := db.transferBonuses.map fun b => (b.sourceProgramId, b.destinationProgramId)
  sumEach (seedBonus ids existingRoutes now) bonusSeeds

/-- SEED journal through the ledger: CREDIT the user, DEBIT the settlement account. -/
def postOpeningBalance (programId userAccountId settlementAccountId : Nat) (amount : Int) :
    DbTx Unit := do
  let _ ← postJournal .seed
    [⟨userAccountId, programId, .credit, amount⟩, ⟨settlementAccountId, programId, .debit, amount⟩]
    none
  pure ()

/-- A user's account with its opening balance, when the user has none. -/
def seedUserAccount (ids settlements : List (String × Nat)) (userId : String)
    (account : String × Int × String) : SeedTx SeedReport := do
  let (programCode, openingBalance, memberId) := account
  let programId ← idUnder ids programCode
  insertMissing (fun db => (db.userAccount? userId programId).isSome)
    (do
      let accountId ← insertAccount .user (some userId) programId .userBalance (some memberId)
      let settlement ← idUnder settlements programCode
      mapFault .database (postOpeningBalance programId accountId settlement openingBalance))
    .userAccount

/-- One round of `_seed_users`. -/
def seedUser (ids settlements : List (String × Nat)) (u : UserSeed) : SeedTx SeedReport := do
  let user ← insertMissing (fun db => decide (u.userId ∈ db.users)) (insertUser u.userId) .user
  let accounts ← sumEach (seedUserAccount ids settlements u.userId) u.accounts
  pure (user + accounts)

/-- `seed`. -/
def seed (now : Time) : SeedTx SeedReport := do
  let programs ← seedPrograms
  let db ← get
  let ids := programIds db
  let systemAccounts ← seedSystemAccounts ids
  let settlements ← settlementIds ids
  let rates ← seedRates ids now
  let bonuses ← seedBonuses ids now
  let users ← sumEach (seedUser ids settlements) userSeeds
  pure (programs + systemAccounts + rates + bonuses + users)

end Seeding

/-! ## The seeded database -/

def emptyDb : Database := ⟨[], [], [], [], [], [], [], [], [], .blank, 0⟩

/-- An empty database seeded at instant 0. -/
@[irreducible] def seedDb : Database := ((Seeding.seed 0).commit emptyDb).2

theorem seedDb_seeded : Seeded seedDb where
  programIds := by decide +kernel
  programCodes := by decide +kernel
  accountIds := by decide +kernel
  owners := by decide +kernel
  userProgram := by decide +kernel
  systemProgramType := by decide +kernel
  systemAccounts := by decide +kernel
  userBalances := by decide +kernel
  clearing := by decide +kernel
  noTransfers := by decide +kernel
  noEvents := List.isEmpty_iff.mp (by decide +kernel)
  seedJournals := by decide +kernel

end LoyaltyTransfer
