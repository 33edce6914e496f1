/-
# `LoyaltyTransfer.Snapshots` — a transfer is reproducible from its own terms

`rate_snapshot` is stored with the transfer when it is debited.  The rate row it
names and the bonuses of the route change afterwards; the amounts must still
follow from the snapshot, and the snapshot from the row.

**Proved here.**  What a conversion returns follows from the snapshot it returns
(`calculateConversion_reproduces`); a replacement keeps every rate row but for
its end (`Repriced.kept`); so every stored transfer is reproducible in every
reachable state, and nothing that happens later alters it
(`transfer_reproducible`).
-/
import LoyaltyTransfer.RateCalls
import LoyaltyTransfer.Ownership
import Mathlib.Data.Rat.Floor

namespace LoyaltyTransfer

open Transaction

/-! ## What a snapshot determines -/

/-- The amounts are those of the snapshot, computed exactly and rounded down. -/
structure RateSnapshot.Reproduces (snapshot : RateSnapshot)
    (sourcePoints basePoints bonusPoints destinationPoints : Int) : Prop where
  base : basePoints = ⌊(sourcePoints * snapshot.numerator : ℚ) / snapshot.denominator⌋
  bonus : bonusPoints =
    match snapshot.bonusBps with
    | some bonusBps => ⌊(basePoints * bonusBps : ℚ) / 10000⌋
    | none => 0
  total : destinationPoints = basePoints + bonusPoints
  together : snapshot.bonusId.isSome = snapshot.bonusBps.isSome

/-- The rate row is the one the snapshot was taken of. -/
structure RateSnapshot.TakenOf (snapshot : RateSnapshot) (r : ConversionRate) : Prop where
  rateId : r.id = snapshot.rateId
  version : r.version = snapshot.version
  numerator : r.numerator = snapshot.numerator
  denominator : r.denominator = snapshot.denominator

theorem RateSnapshot.TakenOf.kept {snapshot : RateSnapshot} {r r' : ConversionRate}
    (h : snapshot.TakenOf r) (hk : r.Kept r') : snapshot.TakenOf r' := by
  rcases hk with rfl | ⟨-, e, rfl⟩
  · exact h
  · exact ⟨h.rateId, h.version, h.numerator, h.denominator⟩

/-- Python's `//` is the floor of the quotient. -/
theorem fdiv_eq_floor (a b : Int) : a.fdiv b = ⌊(a : ℚ) / b⌋ := by
  obtain ⟨d, rfl | rfl⟩ := b.eq_nat_or_neg
  · rw [Int.fdiv_eq_ediv_of_nonneg a (Int.natCast_nonneg d), Int.cast_natCast,
      Rat.floor_intCast_div_natCast]
  · have hneg : a.fdiv (-(d : Int)) = (-a).fdiv d := by
      rw [← Int.neg_fdiv_neg, neg_neg]
    rw [hneg, Int.fdiv_eq_ediv_of_nonneg _ (Int.natCast_nonneg d), ← Rat.floor_intCast_div_natCast]
    push_cast
    rw [div_neg, neg_div]

/-- A conversion that succeeds, with the bonus it applied. -/
theorem calculateConversion_eq {rate : RateRule} {points : Int} {bonus : Option BonusRule}
    {now : Time} {c : Conversion} (h : calculateConversion rate points bonus now = .ok c) :
    ∃ applied : Option BonusRule,
      c.basePoints = (points * rate.numerator).fdiv rate.denominator ∧
      c.bonusPoints = (match applied with
        | some b => (c.basePoints * b.bonusBps).fdiv bpsDenominator
        | none => 0) ∧
      c.destinationPoints = c.basePoints + c.bonusPoints ∧
      c.snapshot = ⟨rate.rateId, rate.version, rate.numerator, rate.denominator,
        applied.map BonusRule.bonusId, applied.map BonusRule.bonusBps⟩ := by
  simp only [calculateConversion, bind, Except.bind, pure, Except.pure, throw, throwThe,
    MonadExceptOf.throw] at h
  generalize bonus.filter (fun b => b.appliesAt now) = applied at h
  refine ⟨applied, ?_⟩
  cases applied with
  | none =>
      dsimp only at h
      repeat' split at h
      all_goals cases h
      all_goals exact ⟨rfl, rfl, rfl, rfl⟩
  | some b =>
      dsimp only at h
      repeat' split at h
      all_goals cases h
      all_goals exact ⟨rfl, rfl, rfl, rfl⟩

theorem calculateConversion_reproduces {rate : RateRule} {points : Int}
    {bonus : Option BonusRule} {now : Time} {c : Conversion}
    (h : calculateConversion rate points bonus now = .ok c) :
    c.snapshot.Reproduces c.sourcePoints c.basePoints c.bonusPoints c.destinationPoints := by
  obtain ⟨applied, hbase, hbonus, hdest, hsnap⟩ := calculateConversion_eq h
  rw [calculateConversion_ok h, hsnap]
  refine ⟨?_, ?_, hdest, ?_⟩
  · rw [hbase, fdiv_eq_floor]
    push_cast
    rfl
  · rw [hbonus]
    cases applied with
    | none => rfl
    | some b =>
        simp only [Option.map_some, fdiv_eq_floor, bpsDenominator]
        push_cast
        rfl
  · cases applied with
    | none => rfl
    | some b => rfl

/-! ## Rate rows are never rewritten -/

def Database.conversionRate? (db : Database) (rateId : Nat) : Option ConversionRate :=
  Table.lookup ConversionRate.id rateId db.conversionRates

/-- The primary keys of the rates are unique. -/
def RateKeys (db : Database) : Prop := (db.conversionRates.map ConversionRate.id).Nodup

section

variable {db db' : Database}

/-- The row `create_rate_version` closes is a row of the table, and open. -/
theorem createRateVersion_writes {newRate : NewRate} {changedAt : Time} {created : ConversionRate}
    (h : (createRateVersion newRate changedAt).run db = .ok (created, db')) :
    created.id = Table.nextId ConversionRate.id db.conversionRates ∧
      (db'.conversionRates = db.conversionRates ++ [created] ∨
        ∃ current ∈ db.conversionRates, current.effectiveTo = none ∧
          db'.conversionRates = Table.replace ConversionRate.id (current.closedAt changedAt)
            db.conversionRates ++ [created]) := by
  simp only [createRateVersion, Tx.bind_ok, Tx.get_ok, Tx.ofExcept_ok, Tx.pure_ok] at h
  obtain ⟨_, _, ⟨_, -, e₁⟩, _, _, e₂, source, _, ⟨_, -, e₃⟩, destination, _, ⟨_, -, e₄⟩, _, _,
    hclose, _, _, hins, e₅⟩ := h
  cases e₁; cases e₂; cases e₃; cases e₄; cases e₅
  obtain ⟨-, rfl⟩ := insertRate_ok hins
  refine ⟨rfl, ?_⟩
  rcases closeCurrent_ok.mp hclose with ⟨-, rfl⟩ | ⟨current, hfind, -, rfl⟩
  · exact .inl rfl
  · refine .inr ⟨current, (List.mem_filter.mp (List.mem_of_find?_eq_some hfind)).1, ?_, rfl⟩
    have hcurrent := List.find?_some hfind
    simp only [ConversionRate.isCurrent, Bool.and_eq_true, Option.isNone_iff_eq_none] at hcurrent
    exact hcurrent.2

theorem Repriced.keys (h : Repriced db db') (hk : RateKeys db) : RateKeys db' := by
  cases h with
  | same h =>
      rw [RateKeys, h]
      exact hk
  | @version _ changedAt _ h =>
      obtain ⟨hid, hrates⟩ := createRateVersion_writes h
      rcases hrates with hrates | ⟨current, -, -, hrates⟩
      · rw [RateKeys, hrates]
        exact Table.nodup_append_nextId hk hid
      · have hkept : (Table.replace ConversionRate.id (current.closedAt changedAt)
            db.conversionRates).map ConversionRate.id =
          db.conversionRates.map ConversionRate.id := Table.map_key_replace
        rw [RateKeys, hrates]
        exact Table.nodup_append_nextId (hkept ▸ hk) (hid.trans (Table.nextId_congr hkept).symm)

/-- A row is found under its key afterwards, with at most its end set. -/
theorem Repriced.kept (h : Repriced db db') (hk : RateKeys db) {rateId : Nat} {r : ConversionRate}
    (hr : db.conversionRate? rateId = some r) :
    ∃ r', db'.conversionRate? rateId = some r' ∧ r.Kept r' := by
  cases h with
  | same h =>
      refine ⟨r, ?_, .inl rfl⟩
      rw [Database.conversionRate?, h]
      exact hr
  | @version _ changedAt created h =>
      obtain ⟨-, hrates⟩ := createRateVersion_writes h
      rcases hrates with hrates | ⟨current, hcurrent, hopen, hrates⟩
      · refine ⟨r, ?_, .inl rfl⟩
        rw [Database.conversionRate?, hrates]
        exact Table.lookup_append_of_some _ hr
      · simp only [Database.conversionRate?, hrates]
        by_cases hid : r.id = current.id
        · obtain rfl := Table.eq_of_key_eq hk (Table.lookup_mem hr) hcurrent hid
          refine ⟨r.closedAt changedAt, Table.lookup_append_of_some _ ?_, .inr ⟨hopen, _, rfl⟩⟩
          obtain rfl := Table.lookup_key hr
          exact Table.lookup_replace_self (r := r.closedAt changedAt) hr
        · refine ⟨r, Table.lookup_append_of_some _ ?_, .inl rfl⟩
          rw [Table.lookup_replace_other]
          · exact hr
          · rw [← Table.lookup_key hr]
            exact hid

end

/-! ## The terms of a debit -/

/-- The stored amounts, the snapshot and the rate row agree. -/
structure Reproducible (db : Database) (t : Transfer) : Prop where
  amounts : t.rateSnapshot.Reproduces t.sourcePoints t.basePoints t.bonusPoints t.destinationPoints
  rateId : t.rateSnapshot.rateId = t.rateId
  rate : ∃ r, db.conversionRate? t.rateId = some r ∧ t.rateSnapshot.TakenOf r

section

variable {db db' : Database} {t t' : Transfer}

theorem Reproducible.terms (h : Reproducible db t) (hterms : SameTerms t t') :
    Reproducible db t' where
  amounts := by
    rw [hterms.rateSnapshot, hterms.sourcePoints, hterms.basePoints, hterms.bonusPoints,
      hterms.destinationPoints]
    exact h.amounts
  rateId := by
    rw [hterms.rateSnapshot, hterms.rateId]
    exact h.rateId
  rate := by
    rw [hterms.rateSnapshot, hterms.rateId]
    exact h.rate

theorem Reproducible.repriced (h : Reproducible db t) (hk : RateKeys db) (hr : Repriced db db') :
    Reproducible db' t where
  amounts := h.amounts
  rateId := h.rateId
  rate := by
    obtain ⟨r, hrow, htaken⟩ := h.rate
    obtain ⟨r', hrow', hkept⟩ := hr.kept hk hrow
    exact ⟨r', hrow', htaken.kept hkept⟩

/-- The rate a route is priced with is a row. -/
theorem getRoute_rateRow {source destination : String} {now : Time} {route : RouteConfig}
    {rate : RateRule} (h : db.getRoute source destination now = .ok route)
    (hrate : ensureRouteUsable route = .ok rate) :
    ∃ r ∈ db.conversionRates, rate = toRateRule r := by
  have hsome : route.rate = some rate := by
    simp only [ensureRouteUsable, bind, Except.bind] at hrate
    repeat' split at hrate
    all_goals cases hrate
    assumption
  simp only [Database.getRoute, bind, Except.bind] at h
  split at h
  · cases h
  · split at h
    · cases h
    · cases h
      obtain ⟨r, hr, rfl⟩ := Option.map_eq_some_iff.mp hsome
      have hmem := List.mem_of_head? hr
      rw [List.mem_insertionSort] at hmem
      exact ⟨r, (List.mem_filter.mp hmem).1, rfl⟩

theorem Opening.reproducible {source destination clearing : Account} (hk : RateKeys db)
    (h : Opening db t source destination clearing) : Reproducible db t := by
  obtain ⟨now, request, terms, hpriced, ht⟩ := h.priced
  obtain ⟨r, hr, hrate⟩ := getRoute_rateRow hpriced.route hpriced.rate
  obtain ⟨applied, -, -, -, hsnap⟩ := calculateConversion_eq hpriced.conversion
  have hrow : db.conversionRate? r.id = some r := Table.lookup_of_mem hk hr
  rw [ht]
  refine ⟨calculateConversion_reproduces hpriced.conversion, ?_, r, ?_, ?_⟩
  · simp only [Transfer.movedTo, DebitTerms.transfer, hsnap]
  · simp only [Transfer.movedTo, DebitTerms.transfer, hrate]
    exact hrow
  · simp only [Transfer.movedTo, DebitTerms.transfer, hsnap, hrate]
    exact ⟨rfl, rfl, rfl, rfl⟩

/-- A change keeps every transfer reproducible, and opens only such transfers. -/
theorem Change.reproducible {c : Cause} (h : Change c db db') (hk : RateKeys db)
    (hn' : (db'.transfers.map Transfer.id).Nodup)
    (hall : ∀ t ∈ db.transfers, Reproducible db t) : ∀ t ∈ db'.transfers, Reproducible db' t := by
  intro t ht
  cases hold : db.transfer? t.id with
  | none =>
      have hnew : ∀ y ∈ db.transfers, y.id ≠ t.id := fun y hy => Table.lookup_none hold hy
      obtain ⟨-, source, destination, clearing, hopening⟩ := h.opened_of_new ht hnew
      exact (hopening.reproducible hk).repriced hk h.repriced
  | some x =>
      obtain ⟨t', ht', hterms, -⟩ := h.advance hold
      have hsame : t' = t := Table.eq_of_key_eq hn' (Table.lookup_mem ht') ht (Table.lookup_key ht')
      rw [hsame] at hterms
      exact ((hall x (Table.lookup_mem hold)).terms hterms).repriced hk h.repriced

end

/-! ## Along a run -/

section

variable {cfg : Config} {s₀ s s' : State} {as bs : List Action}

theorem run_reproducible (h₀ : Initial s₀) (hk : RateKeys s₀.store.db)
    (h : Runs.run (step cfg) s₀ as = some s) :
    RateKeys s.store.db ∧ ∀ t ∈ s.store.db.transfers, Reproducible s.store.db t := by
  have hI := Runs.run_invariant (I := fun x => Sound s₀.store.db x.store.db ∧
      RateKeys x.store.db ∧ ∀ t ∈ x.store.db.transfers, Reproducible x.store.db t)
    (fun x a x' hx hstep => ?_) ⟨h₀.seeded.sound, hk, by simp [h₀.seeded.noTransfers]⟩ h
  · exact hI.2
  · obtain ⟨hsound, hkeys, hall⟩ := hx
    have hchange := (step_inv hstep).change (hsound.accountIds h₀.seeded)
    have hsound' := hsound.step h₀.seeded hstep
    exact ⟨hsound', hchange.repriced.keys hkeys,
      hchange.reproducible hkeys hsound'.transferIds hall⟩

/-- Every stored transfer is reproducible from its own snapshot, the rate row it
names still has the snapshot's version and ratio, and no later step of any
operation alters the amounts, the snapshot or what they rest on. -/
theorem transfer_reproducible (h₀ : Initial s₀) (hk : RateKeys s₀.store.db)
    (h : Runs.run (step cfg) s₀ as = some s) {t : Transfer} (ht : t ∈ s.store.db.transfers) :
    t.rateSnapshot.Reproduces t.sourcePoints t.basePoints t.bonusPoints t.destinationPoints ∧
      (∃ r, s.store.db.conversionRate? t.rateId = some r ∧ t.rateSnapshot.TakenOf r) ∧
      ∀ bs s', Runs.run (step cfg) s bs = some s' →
        ∃ t', s'.store.db.transfer? t.id = some t' ∧ t'.sourcePoints = t.sourcePoints ∧
          t'.basePoints = t.basePoints ∧ t'.bonusPoints = t.bonusPoints ∧
          t'.destinationPoints = t.destinationPoints ∧ t'.rateId = t.rateId ∧
          t'.rateSnapshot = t.rateSnapshot ∧
          ∃ r, s'.store.db.conversionRate? t.rateId = some r ∧ t.rateSnapshot.TakenOf r := by
  have hrep := (run_reproducible h₀ hk h).2 t ht
  refine ⟨hrep.amounts, hrep.rate, ?_⟩
  intro bs s' h'
  have hrow := Table.lookup_of_mem (run_sound h₀ h).transferIds ht
  obtain ⟨t', ht', hterms, -⟩ := run_transfer h₀ h h' hrow
  have hwhole : Runs.run (step cfg) s₀ (as ++ bs) = some s' := Runs.run_append.mpr ⟨s, h, h'⟩
  have hrep' := (run_reproducible h₀ hk hwhole).2 t' (Table.lookup_mem ht')
  refine ⟨t', ht', hterms.sourcePoints, hterms.basePoints, hterms.bonusPoints,
    hterms.destinationPoints, hterms.rateId, hterms.rateSnapshot, ?_⟩
  rw [← hterms.rateId, ← hterms.rateSnapshot]
  exact hrep'.rate

end

theorem freshState_rateKeys : RateKeys freshState.store.db := seededRates_initial.rates.ids

/-- The rate of the route is replaced after a transfer under it. -/
def repricedRun : List Action := completedRun ++ [.rates (.rate sampleRate 7)]

theorem transfer_reproducible_repricedRun :
    ∃ s t r, Runs.run (step sampleConfig) freshState repricedRun = some s ∧
      t ∈ s.store.db.transfers ∧ t.rateSnapshot.bonusBps = some 2500 ∧
      t.rateSnapshot.Reproduces t.sourcePoints t.basePoints t.bonusPoints t.destinationPoints ∧
      s.store.db.conversionRate? t.rateId = some r ∧ r.effectiveTo = some 7 ∧
      t.rateSnapshot.TakenOf r := by
  have hany : (Runs.run (step sampleConfig) freshState repricedRun).any (fun s : State =>
      s.store.db.transfers.any fun t => decide (t.rateSnapshot.bonusBps = some 2500) &&
        (s.store.db.conversionRate? t.rateId).all fun r => decide (r.effectiveTo = some 7)) =
          true := by
    decide +kernel
  obtain ⟨s, hs, hrows⟩ := (Option.any_eq_true _ _).mp hany
  obtain ⟨t, ht, hboth⟩ := List.any_eq_true.mp hrows
  obtain ⟨hbonus, hclosed⟩ := Bool.and_eq_true_iff.mp hboth
  obtain ⟨hamounts, ⟨r, hr, htaken⟩, -⟩ :=
    transfer_reproducible freshState_initial freshState_rateKeys hs ht
  rw [hr, Option.all_some, decide_eq_true_eq] at hclosed
  exact ⟨s, t, r, hs, ht, of_decide_eq_true hbonus, hamounts, hr, hclosed, htaken⟩

end LoyaltyTransfer
