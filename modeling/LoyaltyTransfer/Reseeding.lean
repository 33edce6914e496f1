/-
# `LoyaltyTransfer.Reseeding` — the seed script over any database

`scripts/seed.py` may meet a database that holds rows already: an earlier seed, a
service that has run for a year, programs added by hand.  `Seed` says what it leaves
in an empty one.

**Proved here.**

    a seed that commits leaves the books as they were kept, everything
    provisioned, and reports what it created            (`seed_creates_what_is_missing`)
    a service that was seeded once, whatever ran since: another seed
    commits, creates nothing and changes nothing        (`reseed_changes_nothing`)
-/
import LoyaltyTransfer.Lib.Moves
import LoyaltyTransfer.Books
import LoyaltyTransfer.Tariffs
import LoyaltyTransfer.Seed

namespace LoyaltyTransfer

namespace Seeding

open Transaction Transaction.Tx

/-! ## What there is to insert -/

def HasProgram (p : ProgramSeed) (db : Database) : Prop :=
  (db.programs.any fun x => x.code == p.code) = true

def HasSystemAccount (k : Nat × AccountType) (db : Database) : Prop :=
  (db.systemAccount? k.1 k.2).isSome = true

/-- The route of the two codes satisfies `p`. -/
def RouteHas (ids : List (String × Nat)) (source destination : String)
    (p : Nat → Nat → Prop) : Prop :=
  ∃ s, idUnder? ids source = some s ∧ ∃ d, idUnder? ids destination = some d ∧ p s d

def HasRate (ids : List (String × Nat)) (r : RateSeed) (db : Database) : Prop :=
  RouteHas ids r.source r.destination fun s d =>
    (s, d) ∈ db.conversionRates.map fun x => (x.sourceProgramId, x.destinationProgramId)

def HasBonus (ids : List (String × Nat)) (b : BonusSeed) (db : Database) : Prop :=
  RouteHas ids b.source b.destination fun s d =>
    (s, d) ∈ db.transferBonuses.map fun x => (x.sourceProgramId, x.destinationProgramId)

def HasUserAccount (ids : List (String × Nat)) (userId : String)
    (account : String × Int × String) (db : Database) : Prop :=
  ∃ programId, idUnder? ids account.1 = some programId ∧
    (db.userAccount? userId programId).isSome = true

def HasUser (ids : List (String × Nat)) (u : UserSeed) (db : Database) : Prop :=
  u.userId ∈ db.users ∧ ∀ account ∈ u.accounts, HasUserAccount ids u.userId account db

/-- Nothing is missing. -/
structure Provisioned (db : Database) : Prop where
  programs : ∀ p ∈ programSeeds, HasProgram p db
  systemAccounts : ∀ k ∈ systemAccountKeys (programIds db), HasSystemAccount k db
  rates : ∀ r ∈ rateSeeds, HasRate (programIds db) r db
  bonuses : ∀ b ∈ bonusSeeds, HasBonus (programIds db) b db
  users : ∀ u ∈ userSeeds, HasUser (programIds db) u db

/-- Nothing that the script looks for goes away. -/
structure Lasts (db db' : Database) : Prop where
  users : db.users ⊆ db'.users
  accounts : ∀ a ∈ db.accounts, ∃ a' ∈ db'.accounts, a' = { a with balance := a'.balance }
  rates : db.conversionRates.map (fun r => (r.sourceProgramId, r.destinationProgramId)) ⊆
    db'.conversionRates.map fun r => (r.sourceProgramId, r.destinationProgramId)
  bonuses : db.transferBonuses.map (fun b => (b.sourceProgramId, b.destinationProgramId)) ⊆
    db'.transferBonuses.map fun b => (b.sourceProgramId, b.destinationProgramId)

section

variable {db db' : Database} {ids : List (String × Nat)}

theorem Lasts.refl (db : Database) : Lasts db db where
  users := List.Subset.refl _
  accounts := fun a ha => ⟨a, ha, rfl⟩
  rates := List.Subset.refl _
  bonuses := List.Subset.refl _

theorem Lasts.trans {a b c : Database} (h : Lasts a b) (h' : Lasts b c) : Lasts a c where
  users := List.Subset.trans h.users h'.users
  accounts := by
    intro x hx
    obtain ⟨y, hy, hxy⟩ := h.accounts x hx
    obtain ⟨z, hz, hyz⟩ := h'.accounts y hy
    refine ⟨z, hz, ?_⟩
    rw [hyz, hxy]
  rates := List.Subset.trans h.rates h'.rates
  bonuses := List.Subset.trans h.bonuses h'.bonuses

/-- A search by anything but the balance finds what it found. -/
theorem Lasts.find (h : Lasts db db') {p : Account → Bool}
    (hp : ∀ (a : Account) (n : Int), p { a with balance := n } = p a)
    (hfound : (db.accounts.find? p).isSome = true) : (db'.accounts.find? p).isSome = true := by
  obtain ⟨a, ha, hpa⟩ := List.find?_isSome.mp hfound
  obtain ⟨a', ha', heq⟩ := h.accounts a ha
  refine List.find?_isSome.mpr ⟨a', ha', ?_⟩
  rw [heq, hp]
  exact hpa

theorem HasSystemAccount.lasts {k : Nat × AccountType} (h : HasSystemAccount k db)
    (hl : Lasts db db') : HasSystemAccount k db' :=
  hl.find (fun _ _ => rfl) h

theorem RouteHas.imp {source destination : String} {p q : Nat → Nat → Prop}
    (h : RouteHas ids source destination p) (hpq : ∀ s d, p s d → q s d) :
    RouteHas ids source destination q := by
  obtain ⟨s, hs, d, hd, hp⟩ := h
  exact ⟨s, hs, d, hd, hpq s d hp⟩

theorem HasRate.lasts {r : RateSeed} (h : HasRate ids r db) (hl : Lasts db db') :
    HasRate ids r db' :=
  h.imp fun _ _ hmem => hl.rates hmem

theorem HasBonus.lasts {b : BonusSeed} (h : HasBonus ids b db) (hl : Lasts db db') :
    HasBonus ids b db' :=
  h.imp fun _ _ hmem => hl.bonuses hmem

theorem HasUserAccount.lasts {userId : String} {account : String × Int × String}
    (h : HasUserAccount ids userId account db) (hl : Lasts db db') :
    HasUserAccount ids userId account db' := by
  obtain ⟨programId, hid, hfound⟩ := h
  exact ⟨programId, hid, hl.find (fun _ _ => rfl) hfound⟩

theorem HasUser.lasts {u : UserSeed} (h : HasUser ids u db) (hl : Lasts db db') :
    HasUser ids u db' :=
  ⟨hl.users h.1, fun account haccount => (h.2 account haccount).lasts hl⟩

theorem Provisioned.lasts (h : Provisioned db) (hprograms : db'.programs = db.programs)
    (hl : Lasts db db') : Provisioned db' := by
  have hids : programIds db' = programIds db := by rw [programIds, hprograms, programIds]
  refine ⟨?_, ?_, ?_, ?_, ?_⟩
  · intro p hp
    rw [HasProgram, hprograms]
    exact h.programs p hp
  · rw [hids]
    exact fun k hk => (h.systemAccounts k hk).lasts hl
  · rw [hids]
    exact fun r hr => (h.rates r hr).lasts hl
  · rw [hids]
    exact fun b hb => (h.bonuses b hb).lasts hl
  · rw [hids]
    exact fun u hu => (h.users u hu).lasts hl

end

/-! ## Nothing to do -/

section

variable {db : Database} {ids : List (String × Nat)} {present : Database → Bool}
  {row : SeedTx Unit} {created : SeedReport}

theorem insertMissing_idle (h : present db = true) :
    (insertMissing present row created).run db = .ok (0, db) := by
  refine bind_ok.mpr ⟨db, db, get_ok.mpr rfl, ?_⟩
  rw [if_pos h]
  rfl

theorem idUnder_run {code : String} {id : Nat} (h : idUnder? ids code = some id) :
    (idUnder ids code).run db = .ok (id, db) :=
  ofOption_ok.mpr ⟨id, h, rfl⟩

theorem seedRoute_idle {existingRoutes : List (Nat × Nat)} {source destination : String}
    {row : Nat → Nat → SeedTx Unit}
    (h : RouteHas ids source destination fun s d => (s, d) ∈ existingRoutes) :
    (seedRoute ids existingRoutes source destination row created).run db = .ok (0, db) := by
  obtain ⟨s, hs, d, hd, hmem⟩ := h
  refine bind_ok.mpr ⟨s, db, idUnder_run hs, bind_ok.mpr ⟨d, db, idUnder_run hd, ?_⟩⟩
  rw [if_pos hmem]
  rfl

theorem seedUser_idle {settlements : List (String × Nat)} {u : UserSeed} (h : HasUser ids u db) :
    (seedUser ids settlements u).run db = .ok (0, db) := by
  refine bind_ok.mpr ⟨0, db, insertMissing_idle (decide_eq_true h.1), ?_⟩
  refine bind_ok.mpr ⟨0, db, sumEach_idle ?_, rfl⟩
  intro account haccount
  obtain ⟨programId, hid, hfound⟩ := h.2 account haccount
  exact bind_ok.mpr ⟨programId, db, idUnder_run hid, insertMissing_idle hfound⟩

/-- The account that the dictionary holds is the one `getSystemAccount` finds. -/
theorem HasSystemAccount.settlement {programId : Nat}
    (h : HasSystemAccount (programId, .partnerSettlement) db) :
    settlementOf? db programId ≠ none := by
  obtain ⟨a, ha⟩ := Option.isSome_iff_exists.mp h
  obtain ⟨hmem, -, hprogram, htype⟩ := systemAccount?_spec ha
  rw [settlementOf?, Ne, Option.map_eq_none_iff, List.find?_eq_none]
  intro hnone
  have hno := hnone a (List.mem_filter.mpr ⟨hmem, decide_eq_true htype⟩)
  exact hno (decide_eq_true hprogram)

theorem settlementIds_run (h : ∀ k ∈ systemAccountKeys ids, HasSystemAccount k db) :
    ∃ settlements, (settlementIds ids).run db = .ok (settlements, db) := by
  refine ⟨_, bind_ok.mpr ⟨db, db, get_ok.mpr rfl, bind_ok.mpr ⟨(), db, ?_, rfl⟩⟩⟩
  refine failIf_ok.mpr ⟨?_, rfl⟩
  rintro ⟨p, hp, hnone⟩
  refine (h (p.2, .partnerSettlement) ?_).settlement hnone
  exact List.mem_flatMap.mpr ⟨p, hp, by simp⟩

/-- Where nothing is missing the script commits and leaves the database alone. -/
theorem seed_idle (h : Provisioned db) (now : Time) : (seed now).run db = .ok (0, db) := by
  obtain ⟨settlements, hsettlements⟩ := settlementIds_run h.systemAccounts
  have hprograms : seedPrograms.run db = .ok (0, db) :=
    sumEach_idle fun p hp => insertMissing_idle (h.programs p hp)
  have hsystem : (seedSystemAccounts (programIds db)).run db = .ok (0, db) :=
    sumEach_idle fun k hk => insertMissing_idle (h.systemAccounts k hk)
  have hrates : (seedRates (programIds db) now).run db = .ok (0, db) :=
    bind_ok.mpr ⟨db, db, get_ok.mpr rfl, sumEach_idle fun r hr => seedRoute_idle (h.rates r hr)⟩
  have hbonuses : (seedBonuses (programIds db) now).run db = .ok (0, db) :=
    bind_ok.mpr ⟨db, db, get_ok.mpr rfl, sumEach_idle fun b hb => seedRoute_idle (h.bonuses b hb)⟩
  have husers : (sumEach (seedUser (programIds db) settlements) userSeeds).run db = .ok (0, db) :=
    sumEach_idle fun u hu => seedUser_idle (h.users u hu)
  refine bind_ok.mpr ⟨0, db, hprograms, bind_ok.mpr ⟨db, db, get_ok.mpr rfl, ?_⟩⟩
  refine bind_ok.mpr ⟨0, db, hsystem, bind_ok.mpr ⟨settlements, db, hsettlements, ?_⟩⟩
  refine bind_ok.mpr ⟨0, db, hrates, bind_ok.mpr ⟨0, db, hbonuses, ?_⟩⟩
  exact bind_ok.mpr ⟨0, db, husers, rfl⟩

end

/-! ## What a run of the script inserts -/

/-- The rows of each kind. -/
def size (db : Database) : SeedReport where
  programs := db.programs.length
  systemAccounts := db.accounts.countP fun a => decide (a.ownerType = .system)
  rates := db.conversionRates.length
  bonuses := db.transferBonuses.length
  users := db.users.length
  userAccounts := db.accounts.countP fun a => decide (a.ownerType = .user)

/-- The books are right, and every entry is of an account there is, as the foreign key
has it. -/
structure Ready (db : Database) : Prop where
  booked : Booked db
  entries : ∀ e ∈ db.ledgerEntries, ∃ a ∈ db.accounts, a.id = e.accountId

/-- `created` rows were inserted, none of them a program. -/
structure Inserted (created : SeedReport) (db db' : Database) : Prop where
  programs : db'.programs = db.programs
  lasts : Lasts db db'
  size : size db' = size db + created
  ready : Ready db → Ready db'

instance : Graded Inserted where
  stay db := ⟨rfl, Lasts.refl db, (add_zero _).symm, id⟩
  step h h' := ⟨h'.programs.trans h.programs, h.lasts.trans h'.lasts,
    by rw [h'.size, h.size, add_assoc], fun hr => h'.ready (h.ready hr)⟩

/-- Only programs were inserted. -/
def ProgramsInserted (created : SeedReport) (db db' : Database) : Prop :=
  ∃ ps, db' = { db with programs := db.programs ++ ps } ∧ created = ⟨ps.length, 0, 0, 0, 0, 0⟩

instance : Graded ProgramsInserted where
  stay db := ⟨[], by simp, rfl⟩
  step := by
    rintro n m db _ _ ⟨ps, rfl, rfl⟩ ⟨qs, rfl, rfl⟩
    refine ⟨ps ++ qs, by simp, ?_⟩
    rw [List.length_append]
    rfl

def accountCreated : OwnerType → SeedReport
  | .system => .systemAccount
  | .user => .userAccount

section

variable {db db' : Database}

theorem Ready.congr (h : Ready db) (haccounts : db'.accounts = db.accounts)
    (hentries : db'.ledgerEntries = db.ledgerEntries) : Ready db' := by
  refine ⟨h.booked.congr haccounts hentries, ?_⟩
  rw [haccounts, hentries]
  exact h.entries

/-- A new account has no entries and no balance. -/
theorem Ready.account (h : Ready db) {a : Account}
    (hid : a.id = Table.nextId Account.id db.accounts) (hbalance : a.balance = 0) :
    Ready { db with accounts := db.accounts ++ [a] } := by
  have hrows : ∀ {p : Account → Prop}, (∀ x ∈ db.accounts, p x) → p a →
      ∀ x ∈ db.accounts ++ [a], p x := by
    intro p hold hnew x hx
    rcases List.mem_append.mp hx with hx | hx
    · exact hold x hx
    · rw [List.mem_singleton.mp hx]
      exact hnew
  have hledger : ∀ id, Database.ledgerBalance { db with accounts := db.accounts ++ [a] } id =
      db.ledgerBalance id := fun _ => rfl
  refine ⟨⟨Table.nodup_append_nextId h.booked.accountIds hid, ?_, ?_, h.booked.journals, ?_⟩, ?_⟩
  · refine hrows h.booked.balances ?_
    rw [hbalance, hledger]
    refine (Tally.total_of_not_mem ?_).symm
    intro e he heid
    obtain ⟨x, hx, hxid⟩ := h.entries e he
    exact Table.key_ne_nextId hx (hxid.trans (heid.trans hid))
  · intro programId
    have hzero := h.booked.programs programId
    rw [Database.programTotal] at hzero ⊢
    rw [Tally.total_append, hzero, zero_add]
    refine List.sum_eq_zero ?_
    intro n hn
    obtain ⟨x, hx, rfl⟩ := List.mem_map.mp hn
    rw [List.mem_singleton.mp (List.mem_filter.mp hx).1, hbalance]
  · exact hrows h.booked.users fun _ => hbalance.ge
  · intro e he
    obtain ⟨x, hx, hxid⟩ := h.entries e he
    exact ⟨x, List.mem_append_left _ hx, hxid⟩

theorem Ready.post (h : Ready db) {journalType : JournalType} {postings : List Posting}
    {transferId : Option String} (hp : Lawful db journalType postings transferId) :
    Ready (posted db journalType postings transferId) := by
  -- posting moves balances, the accounts stay
  have hkept : ∀ {id : Nat}, (∃ a ∈ db.accounts, a.id = id) →
      ∃ a ∈ (posted db journalType postings transferId).accounts, a.id = id := by
    rintro id ⟨a, ha, rfl⟩
    exact ⟨_, List.mem_map_of_mem ha, rfl⟩
  refine ⟨h.booked.post hp, ?_⟩
  intro e he
  rcases List.mem_append.mp he with he | he
  · exact hkept (h.entries e he)
  · obtain ⟨p, hpmem, rfl⟩ := List.mem_map.mp he
    have hacc := hp.accounts p hpmem
    rw [Database.hasAccount, List.any_eq_true] at hacc
    obtain ⟨a, ha, hof⟩ := hacc
    exact hkept ⟨a, ha, (of_decide_eq_true hof).1⟩

theorem inserted_account {a : Account} (hid : a.id = Table.nextId Account.id db.accounts)
    (hbalance : a.balance = 0) :
    Inserted (accountCreated a.ownerType) db { db with accounts := db.accounts ++ [a] } where
  programs := rfl
  lasts := ⟨List.Subset.refl _, fun x hx => ⟨x, List.mem_append_left _ hx, rfl⟩,
    List.Subset.refl _, List.Subset.refl _⟩
  size := by
    cases hof : a.ownerType with
    | system =>
        simp [Seeding.size, accountCreated, SeedReport.systemAccount, SeedReport.add_def,
          List.countP_append, hof]
    | user =>
        simp [Seeding.size, accountCreated, SeedReport.userAccount, SeedReport.add_def,
          List.countP_append, hof]
  ready := fun h => h.account hid hbalance

theorem inserted_posted {journalType : JournalType} {postings : List Posting}
    {transferId : Option String} (hp : Lawful db journalType postings transferId) :
    Inserted 0 db (posted db journalType postings transferId) where
  programs := rfl
  lasts := by
    refine ⟨List.Subset.refl _, ?_, List.Subset.refl _, List.Subset.refl _⟩
    intro a ha
    exact ⟨_, List.mem_map_of_mem ha, rfl⟩
  size := by
    rw [add_zero]
    simp only [Seeding.size, posted, shiftBalances, List.countP_map]
    rfl
  ready := fun h => h.post hp

end

/-! ## The rows one by one -/

section

variable {db db' : Database} {ids : List (String × Nat)} {n : SeedReport}

theorem insertMissing_inv {present : Database → Bool} {row : SeedTx Unit} {created : SeedReport}
    (h : (insertMissing present row created).run db = .ok (n, db')) :
    (present db = true ∧ n = 0 ∧ db' = db) ∨ (row.run db = .ok ((), db') ∧ n = created) := by
  obtain ⟨_, _, hget, hrun⟩ := bind_ok.mp h
  cases get_ok.mp hget
  by_cases hp : present db = true
  · rw [if_pos hp] at hrun
    cases pure_ok.mp hrun
    exact .inl ⟨hp, rfl, rfl⟩
  · rw [if_neg hp] at hrun
    obtain ⟨_, _, hrow, hlast⟩ := bind_ok.mp hrun
    cases pure_ok.mp hlast
    exact .inr ⟨hrow, rfl⟩

theorem insertProgram_ok {p : ProgramSeed} {u : Unit}
    (h : (insertProgram p).run db = .ok (u, db')) :
    db' = { db with programs := db.programs ++
      [Program.mk (Table.nextId Program.id db.programs) p.code p.name p.type p.partnerCode
        true] } := by
  obtain ⟨_, _, hget, hset⟩ := bind_ok.mp h
  cases get_ok.mp hget
  cases set_ok.mp hset
  rfl

theorem insertUser_ok {userId : String} {u : Unit}
    (h : (insertUser userId).run db = .ok (u, db')) :
    db' = { db with users := db.users ++ [userId] } := by
  obtain ⟨_, _, hget, hset⟩ := bind_ok.mp h
  cases get_ok.mp hget
  cases set_ok.mp hset
  rfl

theorem insertAccount_ok {ownerType : OwnerType} {userId : Option String} {programId : Nat}
    {accountType : AccountType} {externalMemberId : Option String} {id : Nat}
    (h : (insertAccount ownerType userId programId accountType externalMemberId).run db =
      .ok (id, db')) :
    id = Table.nextId Account.id db.accounts ∧ db' = { db with accounts := db.accounts ++
      [⟨id, ownerType, userId, programId, accountType, externalMemberId, 0⟩] } := by
  simp only [insertAccount, bind_ok, get_ok, failIf_ok, set_ok, pure_ok] at h
  obtain ⟨_, _, e₁, _, _, ⟨-, e₂⟩, _, _, e₃, e₄⟩ := h
  cases e₁; cases e₂; cases e₃; cases e₄
  exact ⟨rfl, rfl⟩

theorem idUnder_ok {code : String} {id : Nat} (h : (idUnder ids code).run db = .ok (id, db')) :
    idUnder? ids code = some id ∧ db' = db := by
  obtain ⟨_, hid, e⟩ := ofOption_ok.mp h
  cases e
  exact ⟨hid, rfl⟩

theorem insertBonus_ok {b : TransferBonus} {u : Unit} (h : (insertBonus b).run db = .ok (u, db')) :
    db' = { db with transferBonuses := db.transferBonuses ++ [b] } := by
  simp only [insertBonus, bind_ok, get_ok, failIf_ok, set_ok] at h
  obtain ⟨_, _, e₁, _, _, ⟨-, e₂⟩, _, _, ⟨-, e₃⟩, _, _, ⟨-, e₄⟩, _, _, ⟨-, e₅⟩, e₆⟩ := h
  cases e₁; cases e₂; cases e₃; cases e₄; cases e₅; cases e₆
  rfl

theorem postOpeningBalance_ok {programId userAccountId settlementAccountId : Nat} {amount : Int}
    {u : Unit} (h : (postOpeningBalance programId userAccountId settlementAccountId amount).run db =
      .ok (u, db')) :
    ∃ postings, Lawful db .seed postings none ∧ db' = posted db .seed postings none := by
  obtain ⟨_, _, hpost, hlast⟩ := bind_ok.mp h
  cases pure_ok.mp hlast
  obtain ⟨hp, -, rfl⟩ := postJournal_ok.mp hpost
  exact ⟨_, hp.toLawful, rfl⟩

theorem inserted_user (userId : String) :
    Inserted .user db { db with users := db.users ++ [userId] } where
  programs := rfl
  lasts := ⟨List.subset_append_left _ _, fun a ha => ⟨a, ha, rfl⟩, List.Subset.refl _,
    List.Subset.refl _⟩
  size := by simp [Seeding.size, SeedReport.user, SeedReport.add_def]
  ready := fun h => h.congr rfl rfl

theorem inserted_rate (r : ConversionRate) :
    Inserted .rate db { db with conversionRates := db.conversionRates ++ [r] } where
  programs := rfl
  lasts := by
    refine ⟨List.Subset.refl _, fun a ha => ⟨a, ha, rfl⟩, ?_, List.Subset.refl _⟩
    simp only [List.map_append]
    exact List.subset_append_left _ _
  size := by simp [Seeding.size, SeedReport.rate, SeedReport.add_def]
  ready := fun h => h.congr rfl rfl

theorem inserted_bonus (b : TransferBonus) :
    Inserted .bonus db { db with transferBonuses := db.transferBonuses ++ [b] } where
  programs := rfl
  lasts := by
    refine ⟨List.Subset.refl _, fun a ha => ⟨a, ha, rfl⟩, List.Subset.refl _, ?_⟩
    simp only [List.map_append]
    exact List.subset_append_left _ _
  size := by simp [Seeding.size, SeedReport.bonus, SeedReport.add_def]
  ready := fun h => h.congr rfl rfl

/-- A round either finds its row or inserts it; in both cases it moved so. -/
theorem moves_insertMissing {present : Database → Bool} {row : SeedTx Unit}
    {created : SeedReport} {R : SeedReport → Database → Database → Prop} [Graded R]
    (h : ∀ db u db', row.run db = .ok (u, db') → R created db db') :
    Tx.Moves R (insertMissing present row created) := by
  intro db n db' hrun
  rcases insertMissing_inv hrun with ⟨-, rfl, rfl⟩ | ⟨hrow, rfl⟩
  · exact Graded.stay db'
  · exact h db () db' hrow

end

/-! ## The loops -/

section

variable {ids settlements : List (String × Nat)} {now : Time}

theorem seedProgram_moves (p : ProgramSeed) : Tx.Moves ProgramsInserted
    (insertMissing (fun db => db.programs.any fun x => x.code == p.code) (insertProgram p)
      .program) := by
  refine moves_insertMissing ?_
  intro db u db' hrow
  exact ⟨_, insertProgram_ok hrow, rfl⟩

theorem seedProgram_leaves (p : ProgramSeed) : Leaves (fun _ => True)
    (insertMissing (fun db => db.programs.any fun x => x.code == p.code) (insertProgram p)
      .program) (HasProgram p) := by
  intro db n db' _ hrun
  rcases insertMissing_inv hrun with ⟨hp, -, rfl⟩ | ⟨hrow, -⟩
  · exact hp
  · rw [insertProgram_ok hrow]
    simp [HasProgram]

theorem seedSystemAccount_moves (k : Nat × AccountType) : Tx.Moves Inserted
    (insertMissing (fun db => (db.systemAccount? k.1 k.2).isSome)
      (do let _ ← insertAccount .system none k.1 k.2 none) .systemAccount) := by
  refine moves_insertMissing ?_
  intro db u db' hrow
  obtain ⟨_, _, hinsert, hlast⟩ := bind_ok.mp hrow
  cases pure_ok.mp hlast
  obtain ⟨hid, rfl⟩ := insertAccount_ok hinsert
  exact inserted_account (a := ⟨_, .system, none, k.1, k.2, none, 0⟩) hid rfl

theorem seedSystemAccount_leaves (k : Nat × AccountType) : Leaves (fun _ => True)
    (insertMissing (fun db => (db.systemAccount? k.1 k.2).isSome)
      (do let _ ← insertAccount .system none k.1 k.2 none) .systemAccount)
    (HasSystemAccount k) := by
  intro db n db' _ hrun
  rcases insertMissing_inv hrun with ⟨hp, -, rfl⟩ | ⟨hrow, -⟩
  · exact hp
  · obtain ⟨_, _, hinsert, hlast⟩ := bind_ok.mp hrow
    cases pure_ok.mp hlast
    obtain ⟨-, rfl⟩ := insertAccount_ok hinsert
    exact List.find?_isSome.mpr ⟨_, List.mem_append_right _ (List.mem_singleton_self _), by simp⟩

/-- The route had a history, or its row was inserted. -/
theorem seedRoute_inv {existingRoutes : List (Nat × Nat)} {source destination : String}
    {row : Nat → Nat → SeedTx Unit} {created n : SeedReport} {db db' : Database}
    (h : (seedRoute ids existingRoutes source destination row created).run db = .ok (n, db')) :
    ∃ s, idUnder? ids source = some s ∧ ∃ d, idUnder? ids destination = some d ∧
      (((s, d) ∈ existingRoutes ∧ n = 0 ∧ db' = db) ∨
        ((row s d).run db = .ok ((), db') ∧ n = created)) := by
  obtain ⟨s, _, hsource, hround⟩ := bind_ok.mp h
  obtain ⟨hs, rfl⟩ := idUnder_ok hsource
  obtain ⟨d, _, hdestination, hroute⟩ := bind_ok.mp hround
  obtain ⟨hd, rfl⟩ := idUnder_ok hdestination
  refine ⟨s, hs, d, hd, ?_⟩
  by_cases hknown : (s, d) ∈ existingRoutes
  · rw [if_pos hknown] at hroute
    cases pure_ok.mp hroute
    exact .inl ⟨hknown, rfl, rfl⟩
  · rw [if_neg hknown] at hroute
    obtain ⟨_, _, hrow, hlast⟩ := bind_ok.mp hroute
    cases pure_ok.mp hlast
    exact .inr ⟨hrow, rfl⟩

theorem firstRate_ok {r : RateSeed} {source destination : Nat} {db db' : Database} {u : Unit}
    (h : (firstRate now r source destination).run db = .ok (u, db')) :
    ∃ row : ConversionRate, row.sourceProgramId = source ∧ row.destinationProgramId = destination ∧
      db' = { db with conversionRates := db.conversionRates ++ [row] } := by
  obtain ⟨_, _, hget, hinsert⟩ := bind_ok.mp h
  cases get_ok.mp hget
  obtain ⟨-, rfl⟩ := insertRate_ok (mapFault_ok.mp hinsert)
  exact ⟨_, rfl, rfl, rfl⟩

theorem firstBonus_ok {b : BonusSeed} {source destination : Nat} {db db' : Database} {u : Unit}
    (h : (firstBonus now b source destination).run db = .ok (u, db')) :
    ∃ row : TransferBonus, row.sourceProgramId = source ∧ row.destinationProgramId = destination ∧
      db' = { db with transferBonuses := db.transferBonuses ++ [row] } := by
  obtain ⟨_, _, hget, hends⟩ := bind_ok.mp h
  cases get_ok.mp hget
  obtain ⟨endsAt, _, hadd, hinsert⟩ := bind_ok.mp hends
  obtain ⟨_, -, e⟩ := ofExcept_ok.mp (mapFault_ok.mp hadd)
  cases e
  obtain rfl := insertBonus_ok (mapFault_ok.mp hinsert)
  exact ⟨_, rfl, rfl, rfl⟩

theorem seedRate_moves (existingRoutes : List (Nat × Nat)) (r : RateSeed) :
    Tx.Moves Inserted (seedRate ids existingRoutes now r) := by
  intro db n db' hrun
  obtain ⟨s, -, d, -, ⟨-, rfl, rfl⟩ | ⟨hrow, rfl⟩⟩ := seedRoute_inv hrun
  · exact Graded.stay db'
  · obtain ⟨row, -, -, rfl⟩ := firstRate_ok hrow
    exact inserted_rate row

theorem seedRate_leaves (existingRoutes : List (Nat × Nat)) (r : RateSeed) :
    Leaves (fun db : Database => existingRoutes ⊆
        db.conversionRates.map fun x => (x.sourceProgramId, x.destinationProgramId))
      (seedRate ids existingRoutes now r) (HasRate ids r) := by
  intro db n db' hknown hrun
  obtain ⟨s, hs, d, hd, ⟨hmem, -, rfl⟩ | ⟨hrow, -⟩⟩ := seedRoute_inv hrun
  · exact ⟨s, hs, d, hd, hknown hmem⟩
  · obtain ⟨row, rfl, rfl, rfl⟩ := firstRate_ok hrow
    exact ⟨_, hs, _, hd, by simp⟩

theorem seedBonus_moves (existingRoutes : List (Nat × Nat)) (b : BonusSeed) :
    Tx.Moves Inserted (seedBonus ids existingRoutes now b) := by
  intro db n db' hrun
  obtain ⟨s, -, d, -, ⟨-, rfl, rfl⟩ | ⟨hrow, rfl⟩⟩ := seedRoute_inv hrun
  · exact Graded.stay db'
  · obtain ⟨row, -, -, rfl⟩ := firstBonus_ok hrow
    exact inserted_bonus row

theorem seedBonus_leaves (existingRoutes : List (Nat × Nat)) (b : BonusSeed) :
    Leaves (fun db : Database => existingRoutes ⊆
        db.transferBonuses.map fun x => (x.sourceProgramId, x.destinationProgramId))
      (seedBonus ids existingRoutes now b) (HasBonus ids b) := by
  intro db n db' hknown hrun
  obtain ⟨s, hs, d, hd, ⟨hmem, -, rfl⟩ | ⟨hrow, -⟩⟩ := seedRoute_inv hrun
  · exact ⟨s, hs, d, hd, hknown hmem⟩
  · obtain ⟨row, rfl, rfl, rfl⟩ := firstBonus_ok hrow
    exact ⟨_, hs, _, hd, by simp⟩

/-- The account is there, or it is opened: inserted empty, then credited by a SEED
journal. -/
theorem seedUserAccount_inv {userId : String} {account : String × Int × String}
    {db db' : Database} {n : SeedReport}
    (h : (seedUserAccount ids settlements userId account).run db = .ok (n, db')) :
    ∃ programId, idUnder? ids account.1 = some programId ∧
      (((db.userAccount? userId programId).isSome = true ∧ n = 0 ∧ db' = db) ∨
        ∃ a : Account, a.id = Table.nextId Account.id db.accounts ∧ a.balance = 0 ∧
          a.ownerType = .user ∧ a.userId = some userId ∧ a.programId = programId ∧
          n = .userAccount ∧
          ∃ postings, Lawful { db with accounts := db.accounts ++ [a] } .seed postings none ∧
            db' = posted { db with accounts := db.accounts ++ [a] } .seed postings none) := by
  obtain ⟨programCode, openingBalance, memberId⟩ := account
  obtain ⟨programId, _, hunder, hround⟩ := bind_ok.mp h
  obtain ⟨hid, rfl⟩ := idUnder_ok hunder
  refine ⟨programId, hid, ?_⟩
  rcases insertMissing_inv hround with ⟨hfound, rfl, rfl⟩ | ⟨hrow, rfl⟩
  · exact .inl ⟨hfound, rfl, rfl⟩
  · obtain ⟨accountId, _, hinsert, hopening⟩ := bind_ok.mp hrow
    obtain ⟨haccount, rfl⟩ := insertAccount_ok hinsert
    obtain ⟨settlement, _, hsettlement, hpost⟩ := bind_ok.mp hopening
    obtain ⟨-, rfl⟩ := idUnder_ok hsettlement
    obtain ⟨postings, hlawful, rfl⟩ := postOpeningBalance_ok (mapFault_ok.mp hpost)
    exact .inr ⟨_, haccount, rfl, rfl, rfl, rfl, rfl, postings, hlawful, rfl⟩

theorem seedUserAccount_moves (userId : String) (account : String × Int × String) :
    Tx.Moves Inserted (seedUserAccount ids settlements userId account) := by
  intro db n db' hrun
  obtain ⟨programId, -, ⟨-, rfl, rfl⟩ | ⟨a, haccount, hbalance, hof, -, -, rfl, postings,
    hlawful, rfl⟩⟩ := seedUserAccount_inv hrun
  · exact Graded.stay db'
  · have hopened := inserted_account haccount hbalance
    rw [hof] at hopened
    exact Graded.step hopened (inserted_posted hlawful)

theorem seedUserAccount_leaves (userId : String) (account : String × Int × String) :
    Leaves (fun _ => True) (seedUserAccount ids settlements userId account)
      (HasUserAccount ids userId account) := by
  intro db n db' _ hrun
  obtain ⟨programId, hid, ⟨hfound, -, rfl⟩ | ⟨a, -, -, hof, huser, hprogram, -, postings,
    hlawful, rfl⟩⟩ := seedUserAccount_inv hrun
  · exact ⟨programId, hid, hfound⟩
  · have hopened : HasUserAccount ids userId account
        { db with accounts := db.accounts ++ [a] } := by
      refine ⟨programId, hid, List.find?_isSome.mpr ⟨a, ?_, decide_eq_true ⟨hof, huser, hprogram⟩⟩⟩
      exact List.mem_append_right _ (List.mem_singleton_self a)
    exact hopened.lasts (inserted_posted hlawful).lasts

theorem seedUser_moves (u : UserSeed) : Tx.Moves Inserted (seedUser ids settlements u) := by
  refine moves_add (moves_insertMissing ?_) (moves_sumEach fun account _ =>
    seedUserAccount_moves u.userId account)
  intro db _ db' hrow
  rw [insertUser_ok hrow]
  exact inserted_user u.userId

theorem seedUser_leaves (u : UserSeed) :
    Leaves (fun _ => True) (seedUser ids settlements u) (HasUser ids u) := by
  intro db n db' _ hrun
  obtain ⟨_, db₁, huser, hrest⟩ := bind_ok.mp hrun
  obtain ⟨m, db₂, haccounts, hlast⟩ := bind_ok.mp hrest
  cases pure_ok.mp hlast
  have hmember : u.userId ∈ db₁.users := by
    rcases insertMissing_inv huser with ⟨hp, -, rfl⟩ | ⟨hrow, -⟩
    · exact of_decide_eq_true hp
    · rw [insertUser_ok hrow]
      exact List.mem_append_right _ (List.mem_singleton_self _)
  have hmoved := moves_sumEach (fun account _ => seedUserAccount_moves u.userId account) db₁ m db'
    haccounts
  refine ⟨hmoved.lasts.users hmember, ?_⟩
  refine leaves_sumEach (fun account _ => seedUserAccount_moves u.userId account)
    (fun account _ => seedUserAccount_leaves u.userId account) (fun _ _ _ _ h => h) ?_ db₁ m db'
    trivial haccounts
  intro account _ s s' hins h
  exact h.lasts hins.lasts

theorem seedSystemAccounts_ok {db db' : Database} {n : SeedReport}
    (h : (seedSystemAccounts ids).run db = .ok (n, db')) :
    Inserted n db db' ∧ ∀ k ∈ systemAccountKeys ids, HasSystemAccount k db' := by
  refine ⟨moves_sumEach (fun k _ => seedSystemAccount_moves k) db n db' h, ?_⟩
  refine leaves_sumEach (fun k _ => seedSystemAccount_moves k)
    (fun k _ => seedSystemAccount_leaves k) (fun _ _ _ _ h => h) ?_ db n db' trivial h
  intro k _ s s' hins hk
  exact hk.lasts hins.lasts

theorem settlementIds_ok {db db' : Database}
    (h : (settlementIds ids).run db = .ok (settlements, db')) : db' = db := by
  simp only [settlementIds, bind_ok, get_ok, failIf_ok, pure_ok] at h
  obtain ⟨_, _, e₁, _, _, ⟨-, e₂⟩, e₃⟩ := h
  cases e₁; cases e₂; cases e₃
  rfl

theorem seedRates_ok {db db' : Database} {n : SeedReport}
    (h : (seedRates ids now).run db = .ok (n, db')) :
    Inserted n db db' ∧ ∀ r ∈ rateSeeds, HasRate ids r db' := by
  obtain ⟨_, _, hget, hloop⟩ := bind_ok.mp h
  cases get_ok.mp hget
  refine ⟨moves_sumEach (fun r _ => seedRate_moves _ r) db n db' hloop, ?_⟩
  refine leaves_sumEach (fun r _ => seedRate_moves _ r) (fun r _ => seedRate_leaves _ r) ?_ ?_
    db n db' (List.Subset.refl _) hloop
  · intro _ s s' hins hknown
    exact List.Subset.trans hknown hins.lasts.rates
  · intro r _ s s' hins hr
    exact hr.lasts hins.lasts

theorem seedBonuses_ok {db db' : Database} {n : SeedReport}
    (h : (seedBonuses ids now).run db = .ok (n, db')) :
    Inserted n db db' ∧ ∀ b ∈ bonusSeeds, HasBonus ids b db' := by
  obtain ⟨_, _, hget, hloop⟩ := bind_ok.mp h
  cases get_ok.mp hget
  refine ⟨moves_sumEach (fun b _ => seedBonus_moves _ b) db n db' hloop, ?_⟩
  refine leaves_sumEach (fun b _ => seedBonus_moves _ b) (fun b _ => seedBonus_leaves _ b) ?_ ?_
    db n db' (List.Subset.refl _) hloop
  · intro _ s s' hins hknown
    exact List.Subset.trans hknown hins.lasts.bonuses
  · intro b _ s s' hins hb
    exact hb.lasts hins.lasts

theorem seedUsers_ok {db db' : Database} {n : SeedReport}
    (h : (sumEach (seedUser ids settlements) userSeeds).run db = .ok (n, db')) :
    Inserted n db db' ∧ ∀ u ∈ userSeeds, HasUser ids u db' := by
  refine ⟨moves_sumEach (fun u _ => seedUser_moves u) db n db' h, ?_⟩
  refine leaves_sumEach (fun u _ => seedUser_moves u) (fun u _ => seedUser_leaves u)
    (fun _ _ _ _ h => h) ?_ db n db' trivial h
  intro u _ s s' hins hu
  exact hu.lasts hins.lasts

theorem seedPrograms_ok {db db' : Database} {n : SeedReport}
    (h : seedPrograms.run db = .ok (n, db')) :
    ProgramsInserted n db db' ∧ ∀ p ∈ programSeeds, HasProgram p db' := by
  refine ⟨moves_sumEach (fun p _ => seedProgram_moves p) db n db' h, ?_⟩
  refine leaves_sumEach (fun p _ => seedProgram_moves p) (fun p _ => seedProgram_leaves p)
    (fun _ _ _ _ h => h) ?_ db n db' trivial h
  rintro p _ s s' ⟨ps, rfl, -⟩ hp
  rw [HasProgram, List.any_append, Bool.or_eq_true]
  exact .inl hp

/-- The script inserts programs and then the rows that depend on them, and nothing is
missing once it committed. -/
theorem seed_ok {db db' : Database} {report : SeedReport}
    (h : (seed now).run db = .ok (report, db')) :
    Provisioned db' ∧ ∃ db₁ n m, ProgramsInserted n db db₁ ∧ Inserted m db₁ db' ∧
      report = n + m := by
  obtain ⟨n, db₁, hprograms, h₁⟩ := bind_ok.mp h
  obtain ⟨_, _, hget, h₂⟩ := bind_ok.mp h₁
  cases get_ok.mp hget
  obtain ⟨n₂, db₂, hsystem, h₃⟩ := bind_ok.mp h₂
  obtain ⟨settlements, _, hsettlements, h₄⟩ := bind_ok.mp h₃
  obtain rfl := settlementIds_ok hsettlements
  obtain ⟨n₃, db₃, hrates, h₅⟩ := bind_ok.mp h₄
  obtain ⟨n₄, db₄, hbonuses, h₆⟩ := bind_ok.mp h₅
  obtain ⟨n₅, db₅, husers, hlast⟩ := bind_ok.mp h₆
  cases pure_ok.mp hlast
  obtain ⟨hins₁, hhas₁⟩ := seedPrograms_ok hprograms
  obtain ⟨hins₂, hhas₂⟩ := seedSystemAccounts_ok hsystem
  obtain ⟨hins₃, hhas₃⟩ := seedRates_ok hrates
  obtain ⟨hins₄, hhas₄⟩ := seedBonuses_ok hbonuses
  obtain ⟨hins₅, hhas₅⟩ := seedUsers_ok husers
  have hins₄₅ := Graded.step hins₄ hins₅
  have hins₃₅ := Graded.step hins₃ hins₄₅
  have hins := Graded.step hins₂ hins₃₅
  have hids : programIds db' = programIds db₁ := by
    rw [programIds, hins.programs, programIds]
  refine ⟨⟨?_, ?_, ?_, ?_, ?_⟩, db₁, n, _, hins₁, hins, by simp only [add_assoc]⟩
  · intro p hp
    rw [HasProgram, hins.programs]
    exact hhas₁ p hp
  · rw [hids]
    exact fun k hk => (hhas₂ k hk).lasts hins₃₅.lasts
  · rw [hids]
    exact fun r hr => (hhas₃ r hr).lasts hins₄₅.lasts
  · rw [hids]
    exact fun b hb => (hhas₄ b hb).lasts hins₅.lasts
  · rw [hids]
    exact hhas₅

end

/-! ## Seeding and seeding again -/

/-- Over any database whose books are in order: a seed that commits keeps them in
order, and from the first row on its report counts exactly the rows that are new; a
second run, at whatever time, commits, creates nothing and changes nothing. -/
theorem seed_creates_what_is_missing {db db' : Database} {now : Time} {report : SeedReport}
    (hready : Ready db) (h : (seed now).run db = .ok (report, db')) :
    findViolations db' = [] ∧ size db' = size db + report ∧
      (∀ p ∈ db'.programs, (db'.systemAccount? p.id .transferClearing).isSome = true ∧
        (db'.systemAccount? p.id .partnerSettlement).isSome = true) ∧
      ∀ later, (seed later).run db' = .ok (0, db') := by
  obtain ⟨hprovisioned, db₁, n, m, ⟨ps, rfl, rfl⟩, hins, rfl⟩ := seed_ok h
  refine ⟨?_, ?_, ?_, seed_idle hprovisioned⟩
  · exact (hins.ready (hready.congr rfl rfl)).booked.noViolations
  · rw [hins.size, ← add_assoc]
    refine congrArg (· + m) ?_
    simp [size, SeedReport.add_def]
  · intro p hp
    have hkeys : ∀ ty ∈ [AccountType.transferClearing, .partnerSettlement],
        (p.id, ty) ∈ systemAccountKeys (programIds db') := by
      intro ty hty
      refine List.mem_flatMap.mpr ⟨(p.code, p.id), List.mem_map.mpr ⟨p, hp, rfl⟩, ?_⟩
      simpa using hty
    exact ⟨hprovisioned.systemAccounts _ (hkeys _ (by simp)),
      hprovisioned.systemAccounts _ (hkeys _ (by simp))⟩

section

variable {cfg : Config} {s₀ s : State} {as : List Action}

/-- Whatever the service does, accounts stay and routes keep their history. -/
theorem run_lasts (h₀ : Initial s₀) (hs : TariffsSound s₀.store.db)
    (h : Runs.run (step cfg) s₀ as = some s) :
    s.store.db.programs = s₀.store.db.programs ∧ Lasts s₀.store.db s.store.db := by
  have hsound := run_sound h₀ h
  obtain ⟨-, hkept⟩ := run_tariffs h₀.seeded h₀.seeded.sound hs h
  refine ⟨hsound.programs, ?_, ?_, ?_, ?_⟩
  · rw [hsound.users]
    exact List.Subset.refl _
  · intro a ha
    rw [hsound.accounts]
    exact ⟨_, List.mem_map_of_mem ha, rfl⟩
  · intro route hroute
    obtain ⟨r, hr, rfl⟩ := List.mem_map.mp hroute
    obtain ⟨r', hr', rfl | ⟨-, e, rfl⟩⟩ := hkept.rates r hr
    · exact List.mem_map_of_mem hr'
    · exact List.mem_map.mpr ⟨_, hr', rfl⟩
  · exact List.map_subset _ hkept.bonuses.subset

/-- Once seeded, a service can be seeded again at any moment of any run: the script
commits, creates nothing and leaves every row as it is, rates and bonuses that were
replaced since included. -/
theorem reseed_changes_nothing {db : Database} {now : Time} {report : SeedReport}
    (hseed : (seed now).run db = .ok (report, s₀.store.db)) (h₀ : Initial s₀)
    (hs : TariffsSound s₀.store.db) (h : Runs.run (step cfg) s₀ as = some s) (later : Time) :
    (seed later).run s.store.db = .ok (0, s.store.db) := by
  obtain ⟨hprovisioned, -⟩ := seed_ok hseed
  obtain ⟨hprograms, hlasts⟩ := run_lasts h₀ hs h
  exact seed_idle (hprovisioned.lasts hprograms hlasts) later

end

/-! ## The empty database -/

theorem seed_emptyDb : (seed 0).run emptyDb = .ok (⟨5, 10, 6, 1, 2, 10⟩, seedDb) := by
  have hreport : ((seed 0).commit emptyDb).1.toOption = some ⟨5, 10, 6, 1, 2, 10⟩ := by
    decide +kernel
  rcases commit_cases (seed 0) emptyDb with ⟨report, db, hrun, hcommit⟩ | ⟨e, -, hcommit⟩
  · rw [hcommit] at hreport
    cases hreport
    rw [hrun, seedDb, hcommit]
  · rw [hcommit] at hreport
    cases hreport

theorem emptyDb_ready : Ready emptyDb where
  booked := ⟨by decide, by decide, fun _ => rfl, fun _ _ => rfl, by decide⟩
  entries := by decide

theorem seed_creates_what_is_missing_empty :
    ∃ db, (seed 0).run emptyDb = .ok (⟨5, 10, 6, 1, 2, 10⟩, db) ∧ findViolations db = [] ∧
      (seed 1).run db = .ok (0, db) := by
  obtain ⟨hreport, -, -, hagain⟩ := seed_creates_what_is_missing emptyDb_ready seed_emptyDb
  exact ⟨seedDb, seed_emptyDb, hreport, hagain 1⟩

theorem reseed_changes_nothing_repricedRun :
    ∃ s, Runs.run (step sampleConfig) freshState repricedRun = some s ∧
      (seed 100).run s.store.db = .ok (0, s.store.db) := by
  obtain ⟨s, hs⟩ := Option.isSome_iff_exists.mp (show (Runs.run (step sampleConfig) freshState
    repricedRun).isSome = true by decide +kernel)
  exact ⟨s, hs, reseed_changes_nothing seed_emptyDb freshState_initial freshState_tariffs hs 100⟩

end Seeding

end LoyaltyTransfer
