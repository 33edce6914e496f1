/-
# `LoyaltyTransfer.Routes` — how long a route stays as it was loaded

A `RouteConfig` is loaded for one instant and used at others: `valid_until` says
until when.

**Proved here.**  A route loaded at one instant is what `get_route` finds at any
later one before its `valid_until` (`getRoute_stable`), and at its `valid_until`
the rate or the bonus is another one (`validUntil_exact`).  Backwards in time the
route may differ, but the conversion it gives does not, unless a bonus ended in
between (`bonus_backwards`).
-/
import LoyaltyTransfer.RateVersions

namespace LoyaltyTransfer

open Transaction Timeline

/-! ## The parts of a route -/

def Database.bonusesOn (db : Database) (sourceId destinationId : Nat) : List TransferBonus :=
  db.transferBonuses.filter fun b => b.onRoute sourceId destinationId

/-- The bonus row `get_route` selects. -/
def bonusAt (bonuses : List TransferBonus) (now : Time) : Option TransferBonus :=
  bonuses.find? fun b => b.inForce now

def nextBonusStart (bonuses : List TransferBonus) (now : Time) : Option Time :=
  earliest ((bonuses.filter fun b => decide (now < b.startsAt)).map TransferBonus.startsAt)

/-- The known moments at which the route changes. -/
def boundaries (rate : Option RateRule) (bonus : Option BonusRule) (next : Option Time) :
    List Time :=
  [rate.bind RateRule.effectiveTo, bonus.map BonusRule.endsAt, next].filterMap id

theorem mem_boundaries {rate : Option RateRule} {bonus : Option BonusRule} {next : Option Time}
    {x : Time} :
    x ∈ boundaries rate bonus next ↔
      rate.bind RateRule.effectiveTo = some x ∨ bonus.map BonusRule.endsAt = some x ∨
        next = some x := by
  simp only [boundaries, List.mem_filterMap, List.mem_cons, List.not_mem_nil, or_false, id_eq,
    exists_eq_right, eq_comm]

/-- The route between two programs that were found. -/
def Database.routeAt (db : Database) (source destination : ProgramRef) (now : Time) :
    RouteConfig :=
  let bonuses := db.bonusesOn source.id destination.id
  let rate := (db.rateAt source.id destination.id now).map toRateRule
  let bonus := (bonusAt bonuses now).map TransferBonus.toRule
  { source, destination, rate, bonus
    validUntil := earliest (boundaries rate bonus (nextBonusStart bonuses now)) }

section

variable {db : Database} {sourceCode destinationCode : String} {now : Time} {route : RouteConfig}

theorem getRoute_iff :
    db.getRoute sourceCode destinationCode now = .ok route ↔
      ∃ source destination, db.loadProgram sourceCode = .ok source ∧
        db.loadProgram destinationCode = .ok destination ∧
        db.routeAt source destination now = route := by
  simp only [Database.getRoute, bind, Except.bind]
  cases hs : db.loadProgram sourceCode with
  | error e => simp
  | ok source =>
      cases hd : db.loadProgram destinationCode with
      | error e => simp
      | ok destination =>
          simp only [pure, Except.pure, Except.ok.injEq, exists_and_left, exists_eq_left']
          rfl

end

/-! ## Before the first boundary nothing changes -/

/-- What lies before the earliest moment lies before all of them. -/
theorem lt_of_lt_earliest {moments : List Time} {later : Time}
    (h : ∀ v, earliest moments = some v → later < v) {x : Time} (hx : x ∈ moments) : later < x := by
  cases hmin : earliest moments with
  | none =>
      rw [List.min?_eq_none_iff.mp hmin] at hx
      cases hx
  | some v => exact (h v hmin).trans_le ((List.le_min?_iff hmin).mp le_rfl x hx)

/-- The first row of a narrower kind, when the first of the wider kind is one. -/
theorem find?_narrow {ρ : Type} {p q : ρ → Bool} {rows : List ρ}
    (hnarrow : ∀ x ∈ rows, q x = true → p x = true)
    (hfirst : ∀ x, rows.find? p = some x → q x = true) : rows.find? q = rows.find? p := by
  induction rows with
  | nil => rfl
  | cons x rows ih =>
      cases hp : p x with
      | true =>
          have hq : q x = true := hfirst x (List.find?_cons_of_pos hp)
          rw [List.find?_cons_of_pos hp, List.find?_cons_of_pos hq]
      | false =>
          have hq : ¬ q x = true := by
            intro hq
            have := hnarrow x (List.mem_cons_self ..) hq
            rw [hp] at this
            cases this
          have hp' : ¬ p x = true := by simp [hp]
          rw [List.find?_cons_of_neg hp', List.find?_cons_of_neg hq]
          refine ih (fun y hy => hnarrow y (List.mem_cons_of_mem _ hy)) ?_
          intro y hy
          exact hfirst y (by rw [List.find?_cons_of_neg hp']; exact hy)

section

variable {bonuses : List TransferBonus} {priced later : Time}

theorem bonus_inForce_iff {b : TransferBonus} {now : Time} :
    b.inForce now = true ↔ b.startsAt ≤ now ∧ now < b.endsAt := by
  simp [TransferBonus.inForce]

theorem lt_startsAt_of_lt_next (h : ∀ v, nextBonusStart bonuses priced = some v → later < v)
    {b : TransferBonus} (hb : b ∈ bonuses) (hlt : priced < b.startsAt) : later < b.startsAt :=
  lt_of_lt_earliest h (List.mem_map_of_mem (List.mem_filter.mpr ⟨hb, decide_eq_true hlt⟩))

/-- While no bonus starts and the active one goes on, it stays the active one. -/
theorem bonusAt_stable (hle : priced ≤ later)
    (hnext : ∀ b ∈ bonuses, priced < b.startsAt → later < b.startsAt)
    (hend : ∀ b, bonusAt bonuses priced = some b → later < b.endsAt) :
    bonusAt bonuses later = bonusAt bonuses priced := by
  refine find?_narrow ?_ ?_
  · intro b hb hin
    obtain ⟨hstart, hstop⟩ := bonus_inForce_iff.mp hin
    refine bonus_inForce_iff.mpr ⟨?_, hle.trans_lt hstop⟩
    rcases le_or_gt b.startsAt priced with h | h
    · exact h
    · exact absurd hstart (not_le.mpr (hnext b hb h))
  · intro b hb
    have hin := List.find?_some hb
    obtain ⟨hstart, -⟩ := bonus_inForce_iff.mp hin
    exact bonus_inForce_iff.mpr ⟨hstart.trans hle, hend b hb⟩

theorem nextBonusStart_stable (hle : priced ≤ later)
    (hnext : ∀ b ∈ bonuses, priced < b.startsAt → later < b.startsAt) :
    nextBonusStart bonuses later = nextBonusStart bonuses priced := by
  have hrows : (bonuses.filter fun b => decide (later < b.startsAt)) =
      bonuses.filter fun b => decide (priced < b.startsAt) := by
    refine List.filter_congr fun b hb => decide_eq_decide.mpr ⟨?_, hnext b hb⟩
    intro h
    exact hle.trans_lt h
  rw [nextBonusStart, nextBonusStart, hrows]

end

section

variable {db : Database} {sourceId destinationId : Nat} {priced later : Time}

theorem rateAt_none (hempty : db.rateVersions sourceId destinationId = []) (now : Time) :
    db.rateAt sourceId destinationId now = none := by
  have hrows : (db.conversionRates.filter fun r =>
      r.onRoute sourceId destinationId && r.inForce now) = [] := by
    refine List.filter_eq_nil_iff.mpr ?_
    intro r hr hboth
    exact List.filter_eq_nil_iff.mp hempty r hr (Bool.and_eq_true_iff.mp hboth).1
  rw [Database.rateAt, hrows]
  rfl

/-- Until the end of the version in force, it stays in force. -/
theorem rateAt_stable (h : RouteVersioned (db.rateVersions sourceId destinationId))
    (hstarted : ∀ first, (db.rateVersions sourceId destinationId).head? = some first →
      first.effectiveFrom ≤ priced)
    (hle : priced ≤ later)
    (hend : ∀ r e, db.rateAt sourceId destinationId priced = some r → r.effectiveTo = some e →
      later < e) :
    db.rateAt sourceId destinationId later = db.rateAt sourceId destinationId priced := by
  cases hversions : db.rateVersions sourceId destinationId with
  | nil => rw [rateAt_none hversions, rateAt_none hversions]
  | cons first rest =>
      have htiles := h.tiles
      rw [hversions] at htiles
      obtain ⟨r, hr, hcovers⟩ := htiles.exists_covers (hstarted first (by rw [hversions]; rfl))
      rw [← hversions] at hr
      have hrate := rateAt_eq h hr hcovers
      rw [hrate]
      refine rateAt_eq h hr ⟨hcovers.1.trans hle, ?_⟩
      intro e he
      exact hend r e hrate he

/-- From the start of its last version on, a route has one rate. -/
theorem rateAt_last (h : RouteVersioned (db.rateVersions sourceId destinationId)) {now : Time}
    (hstarted : ∀ r ∈ db.rateVersions sourceId destinationId, r.effectiveFrom ≤ now) :
    db.rateAt sourceId destinationId now =
      (db.rateVersions sourceId destinationId).getLast? := by
  cases hlast : (db.rateVersions sourceId destinationId).getLast? with
  | none => exact rateAt_none (List.getLast?_eq_none_iff.mp hlast) now
  | some r =>
      have hr := List.mem_of_getLast? hlast
      have hopen := (h.tiles.open_iff hr).mpr hlast
      refine rateAt_eq h hr ⟨hstarted r hr, ?_⟩
      intro e he
      rw [hopen] at he
      cases he

end

/-- Every version of every route has started. -/
def RatesStarted (db : Database) (now : Time) : Prop :=
  ∀ r ∈ db.conversionRates, r.effectiveFrom ≤ now

/-- A route is what it was, until its `valid_until`. -/
theorem getRoute_stable {db : Database} {sourceCode destinationCode : String}
    {priced later : Time} {route : RouteConfig}
    (h : db.getRoute sourceCode destinationCode priced = .ok route)
    (hroute : RouteVersioned (db.rateVersions route.source.id route.destination.id))
    (hstarted : ∀ first, (db.rateVersions route.source.id route.destination.id).head? = some first →
      first.effectiveFrom ≤ priced)
    (hle : priced ≤ later) (hvalid : ∀ v, route.validUntil = some v → later < v) :
    db.getRoute sourceCode destinationCode later = .ok route := by
  obtain ⟨source, destination, hs, hd, rfl⟩ := getRoute_iff.mp h
  refine getRoute_iff.mpr ⟨source, destination, hs, hd, ?_⟩
  have hbefore := fun x hx => lt_of_lt_earliest hvalid (mem_boundaries.mpr hx) (x := x)
  have hnext := fun b hb => lt_startsAt_of_lt_next (fun v hv => hbefore v (.inr (.inr hv))) hb
    (b := b)
  have hrate : db.rateAt source.id destination.id later =
      db.rateAt source.id destination.id priced := by
    refine rateAt_stable hroute hstarted hle ?_
    intro r e hr he
    exact hbefore e (.inl (by rw [hr]; exact he))
  have hbonus : bonusAt (db.bonusesOn source.id destination.id) later =
      bonusAt (db.bonusesOn source.id destination.id) priced := by
    refine bonusAt_stable hle hnext ?_
    intro b hb
    exact hbefore b.endsAt (.inr (.inl (by rw [hb]; rfl)))
  simp only [Database.routeAt, hrate, hbonus, nextBonusStart_stable hle hnext]

/-! ## Backwards -/

/-- The exclusion constraint: bonuses of a route do not overlap. -/
def BonusesApart (db : Database) : Prop :=
  ∀ x ∈ db.transferBonuses, ∀ y ∈ db.transferBonuses,
    x.sourceProgramId = y.sourceProgramId → x.destinationProgramId = y.destinationProgramId →
      x.startsAt < y.endsAt → y.startsAt < x.endsAt → x = y

section

variable {db : Database} {sourceId destinationId : Nat} {asked priced : Time}

theorem BonusesApart.unique (h : BonusesApart db) {x y : TransferBonus}
    (hx : x ∈ db.bonusesOn sourceId destinationId) (hy : y ∈ db.bonusesOn sourceId destinationId)
    {now : Time} (hxnow : x.inForce now = true) (hynow : y.inForce now = true) : x = y := by
  obtain ⟨hxrow, hxon⟩ := List.mem_filter.mp hx
  obtain ⟨hyrow, hyon⟩ := List.mem_filter.mp hy
  obtain ⟨hxs, hxd⟩ := of_decide_eq_true hxon
  obtain ⟨hys, hyd⟩ := of_decide_eq_true hyon
  obtain ⟨hxstart, hxend⟩ := bonus_inForce_iff.mp hxnow
  obtain ⟨hystart, hyend⟩ := bonus_inForce_iff.mp hynow
  exact h x hxrow y hyrow (hxs.trans hys.symm) (hxd.trans hyd.symm) (hxstart.trans_lt hyend)
    (hystart.trans_lt hxend)

/-- `calculate_conversion` drops a bonus that does not apply yet, so only one
that has ended is missed. -/
theorem bonus_backwards (h : BonusesApart db) (hle : asked ≤ priced)
    (hends : ∀ b ∈ db.bonusesOn sourceId destinationId, asked < b.endsAt → priced < b.endsAt) :
    ((bonusAt (db.bonusesOn sourceId destinationId) priced).map TransferBonus.toRule).filter
        (fun b => b.appliesAt asked) =
      ((bonusAt (db.bonusesOn sourceId destinationId) asked).map TransferBonus.toRule).filter
        (fun b => b.appliesAt asked) := by
  have happlies : ∀ b : TransferBonus, b.toRule.appliesAt asked = b.inForce asked := fun _ => rfl
  cases hasked : bonusAt (db.bonusesOn sourceId destinationId) asked with
  | some b =>
      have hb := List.mem_of_find?_eq_some hasked
      have hin := List.find?_some hasked
      obtain ⟨hstart, hend⟩ := bonus_inForce_iff.mp hin
      have hin' : b.inForce priced = true :=
        bonus_inForce_iff.mpr ⟨hstart.trans hle, hends b hb hend⟩
      cases hpriced : bonusAt (db.bonusesOn sourceId destinationId) priced with
      | none => exact absurd hin' (List.find?_eq_none.mp hpriced b hb)
      | some b' =>
          have hpin := List.find?_some hpriced
          rw [h.unique (List.mem_of_find?_eq_some hpriced) hb hpin hin']
  | none =>
      cases hpriced : bonusAt (db.bonusesOn sourceId destinationId) priced with
      | none => rfl
      | some b' =>
          have hnot := List.find?_eq_none.mp hasked b' (List.mem_of_find?_eq_some hpriced)
          simp [Option.filter, happlies, hnot]

end

theorem calculateConversion_congr {rate : RateRule} {points : Int} {bonus bonus' : Option BonusRule}
    {now : Time} (h : (bonus.filter fun b => b.appliesAt now) =
      bonus'.filter fun b => b.appliesAt now) :
    calculateConversion rate points bonus now = calculateConversion rate points bonus' now := by
  simp only [calculateConversion, h]

/-! ## The moment it changes -/

/-- The bonus windows of one route: half-open, not empty, apart. -/
structure WindowsApart (bonuses : List TransferBonus) : Prop where
  nonempty : ∀ b ∈ bonuses, b.startsAt < b.endsAt
  apart : ∀ x ∈ bonuses, ∀ y ∈ bonuses,
    x.startsAt < y.endsAt → y.startsAt < x.endsAt → x = y

theorem earliest_mem {moments : List Time} {v : Time} (h : earliest moments = some v) :
    v ∈ moments :=
  List.min?_mem h

/-- The row `get_route` selects is in force. -/
theorem rateAt_inForce {db : Database} {sourceId destinationId : Nat} {now : Time}
    {r : ConversionRate} (h : db.rateAt sourceId destinationId now = some r) :
    r.inForce now = true := by
  have hmem := List.mem_of_mem_head? (Option.mem_def.mpr h)
  rw [List.mem_insertionSort] at hmem
  exact (Bool.and_eq_true_iff.mp (List.mem_filter.mp hmem).2).2

/-- A version in force has not ended. -/
theorem rateAt_lt_effectiveTo {db : Database} {sourceId destinationId : Nat} {now e : Time}
    {r : ConversionRate} (h : db.rateAt sourceId destinationId now = some r)
    (he : r.effectiveTo = some e) : now < e := by
  have hin := rateAt_inForce h
  simp only [ConversionRate.inForce, he, Option.all_some, Bool.and_eq_true,
    decide_eq_true_eq] at hin
  exact hin.2

section

variable {bonuses : List TransferBonus} {now v : Time}

theorem bonusAt_lt_endsAt {b : TransferBonus} (h : bonusAt bonuses now = some b) :
    b.startsAt ≤ now ∧ now < b.endsAt := by
  have hin := List.find?_some h
  exact bonus_inForce_iff.mp hin

theorem nextBonusStart_mem (h : nextBonusStart bonuses now = some v) :
    ∃ b ∈ bonuses, now < b.startsAt ∧ b.startsAt = v := by
  obtain ⟨b, hb, hv⟩ := List.mem_map.mp (earliest_mem h)
  obtain ⟨hmem, hlt⟩ := List.mem_filter.mp hb
  exact ⟨b, hmem, of_decide_eq_true hlt, hv⟩

/-- A scheduled bonus is active from its start on, and then it is the one. -/
theorem bonusAt_startsAt (h : WindowsApart bonuses) {b : TransferBonus} (hb : b ∈ bonuses) :
    bonusAt bonuses b.startsAt = some b := by
  have hin : b.inForce b.startsAt = true := bonus_inForce_iff.mpr ⟨le_refl _, h.nonempty b hb⟩
  cases hfind : bonusAt bonuses b.startsAt with
  | none => exact absurd hin (List.find?_eq_none.mp hfind b hb)
  | some x =>
      have hx := List.mem_of_find?_eq_some hfind
      obtain ⟨hstart, hend⟩ := bonusAt_lt_endsAt hfind
      rw [h.apart x hx b hb (hstart.trans_lt (h.nonempty b hb)) hend]

end

/-- At a boundary of the route, the earliest or not, its rate or its bonus is
another one. -/
theorem routeAt_boundary {db : Database} {source destination : ProgramRef} {now v : Time}
    (hwindows : WindowsApart (db.bonusesOn source.id destination.id))
    (hv : v ∈ boundaries (db.routeAt source destination now).rate
      (db.routeAt source destination now).bonus
      (nextBonusStart (db.bonusesOn source.id destination.id) now)) :
    now < v ∧ ((db.routeAt source destination v).rate ≠ (db.routeAt source destination now).rate ∨
      (db.routeAt source destination v).bonus ≠ (db.routeAt source destination now).bonus) := by
  rcases mem_boundaries.mp hv with hrate | hbonus | hnext
  · -- the version in force ends: what is in force then ends later
    obtain ⟨rule, hrule, he⟩ := Option.bind_eq_some_iff.mp hrate
    obtain ⟨r, hr, rfl⟩ := Option.map_eq_some_iff.mp hrule
    refine ⟨rateAt_lt_effectiveTo hr he, .inl ?_⟩
    intro hsame
    rw [hrule] at hsame
    obtain ⟨r', hr', hrule'⟩ := Option.map_eq_some_iff.mp hsame
    have he' : r'.effectiveTo = some v := (congrArg RateRule.effectiveTo hrule').trans he
    exact lt_irrefl v (rateAt_lt_effectiveTo hr' he')
  · -- the active bonus ends: what is active then ends later
    obtain ⟨rule, hrule, rfl⟩ := Option.map_eq_some_iff.mp hbonus
    obtain ⟨b, hb, rfl⟩ := Option.map_eq_some_iff.mp hrule
    refine ⟨(bonusAt_lt_endsAt hb).2, .inr ?_⟩
    intro hsame
    rw [hrule] at hsame
    obtain ⟨b', hb', hrule'⟩ := Option.map_eq_some_iff.mp hsame
    have hend : b'.endsAt = b.endsAt := congrArg BonusRule.endsAt hrule'
    exact (bonusAt_lt_endsAt hb').2.ne hend.symm
  · -- a bonus starts: the one active before had started
    obtain ⟨b, hb, hlt, rfl⟩ := nextBonusStart_mem hnext
    refine ⟨hlt, .inr ?_⟩
    intro hsame
    have hstarted : (db.routeAt source destination b.startsAt).bonus = some b.toRule := by
      simp only [Database.routeAt, bonusAt_startsAt hwindows hb, Option.map_some]
    rw [hstarted] at hsame
    obtain ⟨x, hx, hrule⟩ := Option.map_eq_some_iff.mp hsame.symm
    have hstart : x.startsAt = b.startsAt := congrArg BonusRule.startsAt hrule
    exact absurd ((hstart.symm.trans_le (bonusAt_lt_endsAt hx).1)) (not_le.mpr hlt)

/-- `valid_until` is exact: before it the route is what it was, and at it the
rate or the bonus is another one. -/
theorem validUntil_exact {db : Database} {sourceCode destinationCode : String}
    {asked : Time} {route : RouteConfig}
    (h : db.getRoute sourceCode destinationCode asked = .ok route)
    (hroute : RouteVersioned (db.rateVersions route.source.id route.destination.id))
    (hstarted : ∀ first, (db.rateVersions route.source.id route.destination.id).head? = some first →
      first.effectiveFrom ≤ asked)
    (hwindows : WindowsApart (db.bonusesOn route.source.id route.destination.id)) :
    (∀ later, asked ≤ later → (∀ v, route.validUntil = some v → later < v) →
      ∃ route', db.getRoute sourceCode destinationCode later = .ok route' ∧
        route'.source = route.source ∧ route'.destination = route.destination ∧
        route'.rate = route.rate ∧ route'.bonus = route.bonus) ∧
    ∀ v, route.validUntil = some v → asked < v ∧
      ∃ route', db.getRoute sourceCode destinationCode v = .ok route' ∧
        (route'.rate ≠ route.rate ∨ route'.bonus ≠ route.bonus) := by
  constructor
  · intro later hle hvalid
    exact ⟨route, getRoute_stable h hroute hstarted hle hvalid, rfl, rfl, rfl, rfl⟩
  · intro v hv
    obtain ⟨source, destination, hs, hd, rfl⟩ := getRoute_iff.mp h
    obtain ⟨hlt, hdiffers⟩ := routeAt_boundary hwindows (earliest_mem hv)
    exact ⟨hlt, _, getRoute_iff.mpr ⟨source, destination, hs, hd, rfl⟩, hdiffers⟩

/-- A route with two versions, the first until 50, and two adjacent bonuses, the
first from 10 to 20. -/
def scheduledDb : Database where
  users := []
  programs :=
    [⟨1, "NOVA", "Nova", .card, "NOVA", true⟩, ⟨2, "SKYWARD", "Skyward", .loyalty, "SKYWARD", true⟩]
  conversionRates := [⟨1, 1, 2, 1, 1, 1000, 1000, none, 1, 0, some 50, true⟩,
    ⟨2, 1, 2, 2, 1, 1000, 1000, none, 2, 50, none, true⟩]
  transferBonuses := [⟨1, 1, 2, 2500, 10, 20⟩, ⟨2, 1, 2, 1000, 20, 30⟩]
  accounts := []
  transfers := []
  transferEvents := []
  ledgerJournals := []
  ledgerEntries := []
  updatedAt := .blank
  clock := 0

theorem scheduledDb_rateVersions :
    scheduledDb.rateVersions 1 2 = scheduledDb.conversionRates := by
  decide +kernel

theorem scheduledDb_versioned : RouteVersioned (scheduledDb.rateVersions 1 2) := by
  rw [scheduledDb_rateVersions]
  exact ⟨⟨rfl, by decide, rfl⟩, rfl, by decide⟩

theorem scheduledDb_started (first : ConversionRate)
    (h : (scheduledDb.rateVersions 1 2).head? = some first) : first.effectiveFrom ≤ 10 := by
  rw [scheduledDb_rateVersions] at h
  cases h
  decide

/-- Loaded while the first bonus is active, the route changes at 20: there the
second one is. -/
theorem validUntil_exact_adjacent :
    ∃ route, scheduledDb.getRoute "NOVA" "SKYWARD" 10 = .ok route ∧
      route.validUntil = some 20 ∧
      ∃ route', scheduledDb.getRoute "NOVA" "SKYWARD" 20 = .ok route' ∧
        (route'.rate ≠ route.rate ∨ route'.bonus ≠ route.bonus) := by
  have hroute : scheduledDb.getRoute "NOVA" "SKYWARD" 10 =
      .ok (scheduledDb.routeAt ⟨1, "NOVA", true⟩ ⟨2, "SKYWARD", true⟩ 10) :=
    getRoute_iff.mpr ⟨_, _, rfl, rfl, rfl⟩
  have hvalid : (scheduledDb.routeAt ⟨1, "NOVA", true⟩ ⟨2, "SKYWARD", true⟩ 10).validUntil =
      some 20 := by decide +kernel
  have hexact := validUntil_exact hroute scheduledDb_versioned scheduledDb_started
    ⟨by decide +kernel, by decide +kernel⟩
  exact ⟨_, hroute, hvalid, (hexact.2 20 hvalid).2⟩

end LoyaltyTransfer
