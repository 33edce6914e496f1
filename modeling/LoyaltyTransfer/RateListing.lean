/-
# `LoyaltyTransfer.RateListing` — the rates an admin reads

`GET /v1/admin/rates` over `RateAdminService.list_rates`: every version of every route,
past and present, joined with the codes of its two programs, by route and newest first.
The engine prices with rows it selects by another query (`get_route`), and a transfer
keeps a copy of the terms it was debited on.

**Proved here.**  In every reachable state the three agree (`rates_listed`): the listing
of a route is its whole history, numbered down to 1, with only its first row current; at
any instant `get_route` prices with the one listed row in force, and without a rate where
there is none; each transfer's snapshot is of a row listed under its own route; and
whatever runs on, the listing only grows at its head.
-/
import LoyaltyTransfer.Tariffs
import LoyaltyTransfer.Lib.OrderBy

namespace LoyaltyTransfer

open Transaction Timeline OrderBy

/-! ## The listing -/

/-- `RateVersion`. -/
structure RateVersion where
  id : Nat
  sourceProgram : String
  destinationProgram : String
  numerator : Int
  denominator : Int
  minSourcePoints : Int
  sourceIncrement : Int
  maxSourcePoints : Option Int
  version : Int
  effectiveFrom : Time
  effectiveTo : Option Time
  active : Bool
  deriving DecidableEq

def RateVersion.isCurrent (rate : RateVersion) : Bool := rate.active && rate.effectiveTo.isNone

/-- `_to_rate_version`. -/
def toRateVersion (row : ConversionRate) (sourceCode destinationCode : String) : RateVersion where
  id := row.id
  sourceProgram := sourceCode
  destinationProgram := destinationCode
  numerator := row.numerator
  denominator := row.denominator
  minSourcePoints := row.minSourcePoints
  sourceIncrement := row.sourceIncrement
  maxSourcePoints := row.maxSourcePoints
  version := row.version
  effectiveFrom := row.effectiveFrom
  effectiveTo := row.effectiveTo
  active := row.active

def RateVersion.NewestFirst (x y : RateVersion) : Prop := y.version ≤ x.version

/-- `ORDER BY source.code, destination.code, version DESC`. -/
abbrev RateVersion.Listed (collation : Collation) : RateVersion → RateVersion → Prop :=
  ThenBy (collation.By RateVersion.sourceProgram)
    (ThenBy (collation.By RateVersion.destinationProgram) RateVersion.NewestFirst)

instance : DecidableRel RateVersion.NewestFirst :=
  fun x y => inferInstanceAs (Decidable (y.version ≤ x.version))

instance : Std.Total RateVersion.NewestFirst := ⟨fun x y => le_total y.version x.version⟩

instance : IsTrans RateVersion RateVersion.NewestFirst := ⟨fun _ _ _ hxy hyz => le_trans hyz hxy⟩

/-- `if source_program:` — a missing and an empty filter let every code through. -/
def admits (filter : Option String) (code : String) : Bool :=
  filter.all fun wanted => wanted.isEmpty || wanted == code

/-- The rates joined with the codes of their programs. -/
def Database.joinedRates (db : Database) : List RateVersion :=
  db.conversionRates.filterMap fun row => do
    let source ← db.program? row.sourceProgramId
    let destination ← db.program? row.destinationProgramId
    some (toRateVersion row source.code destination.code)

/-- `RateAdminService.list_rates`. -/
def Database.listRates (db : Database) (collation : Collation)
    (sourceProgram destinationProgram : Option String) : List RateVersion :=
  (db.joinedRates.filter fun rate => admits sourceProgram rate.sourceProgram &&
    admits destinationProgram rate.destinationProgram).insertionSort (RateVersion.Listed collation)

structure RateOut extends RateVersion where
  isCurrent : Bool
  deriving DecidableEq

/-- `_rate_out`. -/
def rateOut (rate : RateVersion) : RateOut := { rate with isCurrent := rate.isCurrent }

/-- The route `GET /v1/admin/rates`. -/
def Database.getRates (db : Database) (collation : Collation)
    (sourceProgram destinationProgram : Option String) : List RateOut :=
  (db.listRates collation sourceProgram destinationProgram).map rateOut

/-! ## The rows of one route -/

def RateVersion.onRoute (rate : RateVersion) (sourceCode destinationCode : String) : Bool :=
  decide (rate.sourceProgram = sourceCode ∧ rate.destinationProgram = destinationCode)

/-- What the admin reads of the route, however the listing is filtered. -/
def Database.ratesShown (db : Database) (collation : Collation)
    (sourceProgram destinationProgram : Option String) (p q : Program) : List RateOut :=
  (db.getRates collation sourceProgram destinationProgram).filter fun rate =>
    rate.onRoute p.code q.code

section

variable {db : Database} {p q : Program} {collation : Collation}

/-- A joined row is on the route of two programs if its rate is. -/
theorem joined_onRoute (hids : (db.programs.map Program.id).Nodup)
    (hcodes : (db.programs.map Program.code).Nodup) (hp : p ∈ db.programs) (hq : q ∈ db.programs)
    (row : ConversionRate) :
    (Option.filter (fun rate : RateVersion => rate.onRoute p.code q.code) do
        let source ← db.program? row.sourceProgramId
        let destination ← db.program? row.destinationProgramId
        some (toRateVersion row source.code destination.code)) =
      if row.onRoute p.id q.id then some (toRateVersion row p.code q.code) else none := by
  have hfound : ∀ {x : Program}, x ∈ db.programs → db.program? x.id = some x :=
    fun hx => Table.lookup_of_mem hids hx
  by_cases hon : row.onRoute p.id q.id = true
  · obtain ⟨hs, hd⟩ := of_decide_eq_true hon
    rw [if_pos hon, hs, hd, hfound hp, hfound hq]
    simp [Option.filter, RateVersion.onRoute, toRateVersion]
  · rw [if_neg hon]
    cases hsource : db.program? row.sourceProgramId with
    | none => rfl
    | some source =>
        cases hdestination : db.program? row.destinationProgramId with
        | none => rfl
        | some destination =>
            refine Option.filter_eq_none_iff.mpr ?_
            rintro rate ⟨⟩ hroute
            -- the codes are unique, so both programs are the ones of the route
            obtain ⟨hs, hd⟩ := of_decide_eq_true hroute
            obtain rfl := Table.eq_of_key_eq hcodes (Table.lookup_mem hsource) hp hs
            obtain rfl := Table.eq_of_key_eq hcodes (Table.lookup_mem hdestination) hq hd
            exact hon (decide_eq_true
              ⟨(Table.lookup_key hsource).symm, (Table.lookup_key hdestination).symm⟩)

theorem joinedRates_route (hids : (db.programs.map Program.id).Nodup)
    (hcodes : (db.programs.map Program.code).Nodup) (hp : p ∈ db.programs) (hq : q ∈ db.programs) :
    (db.joinedRates.filter fun rate => rate.onRoute p.code q.code) =
      (db.rateVersions p.id q.id).map fun row => toRateVersion row p.code q.code := by
  rw [Database.joinedRates, List.filter_filterMap, Database.rateVersions, ← List.filterMap_eq_map',
    List.filterMap_filter]
  exact List.filterMap_congr fun row _ => joined_onRoute hids hcodes hp hq row

/-- The filters of a listing keep a route they admit whole. -/
theorem admitted_route (hids : (db.programs.map Program.id).Nodup)
    (hcodes : (db.programs.map Program.code).Nodup) (hp : p ∈ db.programs) (hq : q ∈ db.programs)
    {sourceProgram destinationProgram : Option String}
    (hsource : admits sourceProgram p.code = true)
    (hdestination : admits destinationProgram q.code = true) :
    ((db.joinedRates.filter fun rate => admits sourceProgram rate.sourceProgram &&
      admits destinationProgram rate.destinationProgram).filter fun rate =>
        rate.onRoute p.code q.code) =
      (db.rateVersions p.id q.id).map fun row => toRateVersion row p.code q.code := by
  rw [← joinedRates_route hids hcodes hp hq, List.filter_filter]
  refine List.filter_congr ?_
  intro rate _
  by_cases hon : rate.onRoute p.code q.code = true
  · obtain ⟨hs, hd⟩ := of_decide_eq_true hon
    rw [hon, hs, hd, hsource, hdestination]
    rfl
  · rw [Bool.eq_false_iff.mpr hon, Bool.false_and]

section

variable {versions : List ConversionRate}

theorem RouteVersioned.versions_lt (h : RouteVersioned versions) :
    versions.Pairwise fun x y => x.version < y.version := by
  rw [← List.pairwise_map (f := ConversionRate.version) (R := fun x y : Int => x < y), h.numbered,
    List.pairwise_map]
  refine List.pairwise_lt_range.imp ?_
  intro i j hij
  omega

theorem RouteVersioned.eq_of_version (h : RouteVersioned versions) {x y : ConversionRate}
    (hx : x ∈ versions) (hy : y ∈ versions) (hversion : x.version = y.version) : x = y := by
  have hn : (versions.map ConversionRate.version).Nodup :=
    List.pairwise_map.mpr (h.versions_lt.imp fun hlt => hlt.ne)
  exact List.inj_on_of_nodup_map hn hx hy hversion

/-- The versions of one route, newest first, are in the order of the listing. -/
theorem RouteVersioned.listed (h : RouteVersioned versions) (sourceCode destinationCode : String) :
    (versions.map fun row => toRateVersion row sourceCode destinationCode).reverse.Pairwise
      (RateVersion.Listed collation) := by
  rw [List.pairwise_reverse, List.pairwise_map]
  refine h.versions_lt.imp ?_
  intro x y hxy
  have htie : ∀ code : String, collation.le code code = true := by
    intro code
    exact (collation.total code code).elim id id
  exact ThenBy.of_tie (htie sourceCode) (ThenBy.of_tie (htie destinationCode) hxy.le)

/-- Rows that tie in the listing have one version. -/
theorem version_eq_of_tie {x y : RateVersion} (hxy : RateVersion.Listed collation x y)
    (hyx : RateVersion.Listed collation y x) : x.version = y.version :=
  le_antisymm ((hyx.2 hxy.1).2 (hxy.2 hyx.1).1) ((hxy.2 hyx.1).2 (hyx.2 hxy.1).1)

end

/-- The versions of the route, newest first. -/
def Database.versionsShown (db : Database) (p q : Program) : List RateOut :=
  ((db.rateVersions p.id q.id).map fun row => rateOut (toRateVersion row p.code q.code)).reverse

/-- The listing of a route is its history, whatever filters let it through. -/
theorem ratesShown_eq (hids : (db.programs.map Program.id).Nodup)
    (hcodes : (db.programs.map Program.code).Nodup) (hp : p ∈ db.programs) (hq : q ∈ db.programs)
    (hversioned : RouteVersioned (db.rateVersions p.id q.id))
    {sourceProgram destinationProgram : Option String}
    (hsource : admits sourceProgram p.code = true)
    (hdestination : admits destinationProgram q.code = true) :
    db.ratesShown collation sourceProgram destinationProgram p q = db.versionsShown p q := by
  have hkept := admitted_route hids hcodes hp hq hsource hdestination
  have hroute := filter_insertionSort (r := RateVersion.Listed collation)
    ((List.reverse_perm _).trans (List.Perm.of_eq hkept.symm))
    (hversioned.listed p.code q.code) ?_
  · rw [Database.ratesShown, Database.getRates, List.filter_map]
    refine (congrArg (List.map rateOut) hroute).trans ?_
    rw [List.map_reverse, List.map_map]
    rfl
  · intro x hx y hy hxy hyx
    obtain ⟨x, hxr, rfl⟩ := List.mem_map.mp (List.mem_reverse.mp hx)
    obtain ⟨y, hyr, rfl⟩ := List.mem_map.mp (List.mem_reverse.mp hy)
    rw [hversioned.eq_of_version hxr hyr (version_eq_of_tie hxy hyx)]

end

/-! ## What the listing says -/

/-- A route's rows, newest first: numbered down to 1, only the first one current, and
each ending where the one above it starts. -/
structure RouteListed (rates : List RateOut) : Prop where
  numbered : rates.map (fun rate => rate.version) =
    ((List.range rates.length).map fun (i : Nat) => (i : Int) + 1).reverse
  current : ∀ rate ∈ rates, rate.isCurrent = true ↔ rates.head? = some rate
  ends : rates.IsChain fun newer older =>
    older.effectiveTo = some newer.effectiveFrom ∧ older.effectiveFrom < newer.effectiveFrom

def RateOut.inForce (rate : RateOut) (now : Time) : Bool :=
  rate.active && decide (rate.effectiveFrom ≤ now) && rate.effectiveTo.all fun t => decide (now < t)

/-- What the engine prices with when it prices with the listed rate. -/
def RateOut.rule (rate : RateOut) : RateRule where
  rateId := rate.id
  version := rate.version
  numerator := rate.numerator
  denominator := rate.denominator
  minSourcePoints := rate.minSourcePoints
  sourceIncrement := rate.sourceIncrement
  maxSourcePoints := rate.maxSourcePoints
  effectiveTo := rate.effectiveTo

/-- The row `get_route` selects is a version of the route, in force. -/
theorem rateAt_mem {db : Database} {sourceId destinationId : Nat} {now : Time}
    {r : ConversionRate} (h : db.rateAt sourceId destinationId now = some r) :
    r ∈ db.rateVersions sourceId destinationId ∧ r.inForce now = true := by
  have hsel := List.mem_of_head? h
  rw [List.mem_insertionSort, List.mem_filter, Bool.and_eq_true] at hsel
  exact ⟨mem_rateVersions.mpr ⟨hsel.1, hsel.2.1⟩, hsel.2.2⟩

section

variable {db : Database} {p q : Program}

theorem versionsShown_listed (h : RouteVersioned (db.rateVersions p.id q.id)) :
    RouteListed (db.versionsShown p q) where
  numbered := by
    rw [Database.versionsShown, List.map_reverse, List.map_map, List.length_reverse,
      List.length_map, ← h.numbered]
    rfl
  current := by
    intro rate hrate
    obtain ⟨row, hrow, rfl⟩ := List.mem_map.mp (List.mem_reverse.mp hrate)
    refine Iff.trans (h.isCurrent_iff hrow) ?_
    rw [Database.versionsShown, List.head?_reverse, List.getLast?_map]
    refine ⟨fun hlast => by rw [hlast]; rfl, ?_⟩
    intro hlast
    obtain ⟨last, hlast, hsame⟩ := Option.map_eq_some_iff.mp hlast
    have hversion : last.version = row.version := congrArg (fun rate => rate.version) hsame
    rw [hlast, h.eq_of_version (List.mem_of_getLast? hlast) hrow hversion]
  ends := by
    rw [Database.versionsShown, List.isChain_reverse, List.isChain_map]
    exact h.tiles.isChain

/-- Of the listed rows at most one is in force, and `get_route` prices with it. -/
theorem versionsShown_priced (h : RouteVersioned (db.rateVersions p.id q.id))
    (hcodes : (db.programs.map Program.code).Nodup)
    (hp : p ∈ db.programs) (hq : q ∈ db.programs) (now : Time) :
    (∀ x ∈ db.versionsShown p q, ∀ y ∈ db.versionsShown p q,
      x.inForce now = true → y.inForce now = true → x = y) ∧
    ∃ route, db.getRoute p.code q.code now = .ok route ∧
      route.rate = ((db.versionsShown p q).find? fun rate => rate.inForce now).map
        RateOut.rule := by
  have hmem : ∀ rate, rate ∈ db.versionsShown p q ↔ ∃ row ∈ db.rateVersions p.id q.id,
      rateOut (toRateVersion row p.code q.code) = rate := by
    intro rate
    rw [Database.versionsShown, List.mem_reverse, List.mem_map]
  have hunique : ∀ x ∈ db.versionsShown p q, ∀ y ∈ db.versionsShown p q,
      x.inForce now = true → y.inForce now = true → x = y := by
    intro x hx y hy hxnow hynow
    obtain ⟨x, hxr, rfl⟩ := (hmem x).mp hx
    obtain ⟨y, hyr, rfl⟩ := (hmem y).mp hy
    rw [h.tiles.covers_unique hxr hyr ((inForce_iff (h.active x hxr)).mp hxnow)
      ((inForce_iff (h.active y hyr)).mp hynow)]
  refine ⟨hunique, ?_⟩
  have hload : ∀ {x : Program}, x ∈ db.programs → db.loadProgram x.code = .ok x.toRef := by
    intro x hx
    rw [Database.loadProgram, Table.lookup_of_mem hcodes hx]
    rfl
  refine ⟨_, getRoute_iff.mpr ⟨_, _, hload hp, hload hq, rfl⟩, ?_⟩
  show (db.rateAt p.id q.id now).map toRateRule = _
  cases hfind : (db.versionsShown p q).find? fun rate => rate.inForce now with
  | some rate =>
      obtain ⟨row, hrow, rfl⟩ := (hmem rate).mp (List.mem_of_find?_eq_some hfind)
      have hin := List.find?_some hfind
      have hnow : row.inForce now = true := hin
      rw [rateAt_eq h hrow ((inForce_iff (h.active row hrow)).mp hnow)]
      rfl
  | none =>
      cases hrow : db.rateAt p.id q.id now with
      | none => rfl
      | some row =>
          obtain ⟨hversion, hnow⟩ := rateAt_mem hrow
          have hshown := (hmem _).mpr ⟨row, hversion, rfl⟩
          exact absurd hnow (List.find?_eq_none.mp hfind _ hshown)

end

/-! ## The history of a route along a run -/

/-- The versions of before, at most with an end, and newer ones after them. -/
structure VersionsKept (versions versions' : List ConversionRate) : Prop where
  older : List.Forall₂ ConversionRate.Kept versions (versions'.take versions.length)

theorem ConversionRate.Kept.refl (r : ConversionRate) : r.Kept r := .inl rfl

theorem keptRows_trans {xs ys zs : List ConversionRate}
    (h : List.Forall₂ ConversionRate.Kept xs ys) (h' : List.Forall₂ ConversionRate.Kept ys zs) :
    List.Forall₂ ConversionRate.Kept xs zs := by
  induction h generalizing zs with
  | nil => exact h'
  | cons hxy _ ih =>
      cases h' with
      | cons hyz hrest => exact .cons (hxy.trans hyz) (ih hrest)

section

variable {versions versions' : List ConversionRate}

theorem VersionsKept.refl (versions : List ConversionRate) : VersionsKept versions versions := by
  refine ⟨?_⟩
  rw [List.take_length]
  exact List.forall₂_same.mpr fun r _ => ConversionRate.Kept.refl r

theorem VersionsKept.length_le (h : VersionsKept versions versions') :
    versions.length ≤ versions'.length := by
  have hlen := h.older.length_eq
  rw [List.length_take] at hlen
  omega

theorem VersionsKept.trans {versions'' : List ConversionRate} (h : VersionsKept versions versions')
    (h' : VersionsKept versions' versions'') : VersionsKept versions versions'' := by
  refine ⟨?_⟩
  have hold := List.forall₂_take versions.length h'.older
  rw [List.take_take, min_eq_left h.length_le] at hold
  exact keptRows_trans h.older hold

theorem VersionsKept.of_append {older newer : List ConversionRate}
    (h : List.Forall₂ ConversionRate.Kept versions older) (heq : versions' = older ++ newer) :
    VersionsKept versions versions' := by
  refine ⟨?_⟩
  rw [heq, h.length_eq, List.take_left]
  exact h

end

section

variable {db db' : Database}

/-- A rate change adds at most one version, at the end of its route. -/
theorem Retariffed.versionsKept (h : Retariffed db db') (hs : TariffsSound db)
    (sourceId destinationId : Nat) :
    VersionsKept (db.rateVersions sourceId destinationId)
      (db'.rateVersions sourceId destinationId) := by
  have hsame : db'.conversionRates = db.conversionRates →
      VersionsKept (db.rateVersions sourceId destinationId)
        (db'.rateVersions sourceId destinationId) := by
    intro heq
    rw [Database.rateVersions, Database.rateVersions, heq]
    exact .refl _
  cases h with
  | same h => exact hsame h.conversionRates
  | bonus h => exact hsame (by rw [h.added])
  | @version sourceId' destinationId' changedAt created h _ =>
      by_cases hroute : sourceId = sourceId' ∧ destinationId = destinationId'
      · obtain ⟨rfl, rfl⟩ := hroute
        rcases h.route_cases hs.rates with ⟨hnil, hnew⟩ | ⟨before, last, hold, -, hnew⟩
        · exact .of_append (by rw [hnil]; exact .nil) hnew
        · have hopen : last.effectiveTo = none := by
            have htiles := (hs.rates.routes sourceId destinationId).tiles
            rw [hold] at htiles
            exact htiles.last_open
          have hkept : List.Forall₂ ConversionRate.Kept
              (db.rateVersions sourceId destinationId)
              (before ++ [last.closedAt changedAt]) := by
            rw [hold]
            exact List.rel_append (List.forall₂_same.mpr fun r _ => .refl r)
              (.cons (.inr ⟨hopen, changedAt, rfl⟩) .nil)
          exact .of_append hkept (hnew.trans (List.append_assoc before [_] [created]).symm)
      · rw [h.other_route hroute]
        exact .refl _

/-- The snapshot of the transfer is of a version of its route. -/
def Tariffed (db : Database) (t : Transfer) : Prop :=
  ∃ r ∈ db.rateVersions t.sourceProgramId t.destinationProgramId, t.rateSnapshot.TakenOf r

theorem VersionsKept.exists_kept {versions versions' : List ConversionRate}
    (h : VersionsKept versions versions') {r : ConversionRate} (hr : r ∈ versions) :
    ∃ r' ∈ versions', r.Kept r' := by
  obtain ⟨i, hi, rfl⟩ := List.mem_iff_getElem.mp hr
  have hi' : i < (versions'.take versions.length).length := by rw [← h.older.length_eq]; exact hi
  exact ⟨(versions'.take versions.length)[i], List.mem_of_mem_take (List.getElem_mem hi'),
    h.older.get hi hi'⟩

theorem Tariffed.kept {t : Transfer} (h : Tariffed db t)
    (hkept : VersionsKept (db.rateVersions t.sourceProgramId t.destinationProgramId)
      (db'.rateVersions t.sourceProgramId t.destinationProgramId)) : Tariffed db' t := by
  obtain ⟨r, hr, htaken⟩ := h
  obtain ⟨r', hr', hrr'⟩ := hkept.exists_kept hr
  exact ⟨r', hr', htaken.kept hrr'⟩

theorem Tariffed.terms {t t' : Transfer} (h : Tariffed db t) (hterms : SameTerms t t') :
    Tariffed db t' := by
  rw [Tariffed, hterms.sourceProgramId, hterms.destinationProgramId, hterms.rateSnapshot]
  exact h

/-- A debit is priced with a version of its own route. -/
theorem Opening.tariffed {t : Transfer} {source destination clearing : Account}
    (h : Opening db t source destination clearing) : Tariffed db t := by
  obtain ⟨now, request, terms, hpriced, ht⟩ := h.priced
  obtain ⟨p, q, -, -, hroute⟩ := getRoute_iff.mp hpriced.route
  have hrate : terms.route.rate = some terms.rate := by
    have husable := hpriced.rate
    simp only [ensureRouteUsable, bind, Except.bind] at husable
    repeat' split at husable
    all_goals cases husable
    assumption
  rw [← hroute] at hrate
  obtain ⟨r, hr, hrule⟩ := Option.map_eq_some_iff.mp hrate
  obtain ⟨applied, -, -, -, hsnap⟩ := calculateConversion_eq hpriced.conversion
  refine ⟨r, ?_, ?_⟩
  · rw [ht]
    simp only [Transfer.movedTo, DebitTerms.transfer, ← hroute]
    exact (rateAt_mem hr).1
  · rw [ht]
    simp only [Transfer.movedTo, DebitTerms.transfer, hsnap, ← hrule]
    exact ⟨rfl, rfl, rfl, rfl⟩

theorem Change.tariffed {c : Cause} (h : Change c db db')
    (hn' : (db'.transfers.map Transfer.id).Nodup)
    (hkept : ∀ sourceId destinationId, VersionsKept (db.rateVersions sourceId destinationId)
      (db'.rateVersions sourceId destinationId))
    (hall : ∀ t ∈ db.transfers, Tariffed db t) : ∀ t ∈ db'.transfers, Tariffed db' t := by
  intro t ht
  cases hold : db.transfer? t.id with
  | none =>
      have hnew : ∀ y ∈ db.transfers, y.id ≠ t.id := fun y hy => Table.lookup_none hold hy
      obtain ⟨-, source, destination, clearing, hopening⟩ := h.opened_of_new ht hnew
      exact hopening.tariffed.kept (hkept _ _)
  | some x =>
      obtain ⟨t', ht', hterms, -⟩ := h.advance hold
      have hsame : t' = t := Table.eq_of_key_eq hn' (Table.lookup_mem ht') ht (Table.lookup_key ht')
      rw [hsame] at hterms
      exact ((hall x (Table.lookup_mem hold)).terms hterms).kept (hkept _ _)

/-- The row is shown as before, or it was open and has an end now. -/
def RateOut.Kept (rate rate' : RateOut) : Prop :=
  rate' = rate ∨ rate.effectiveTo = none ∧
    ∃ e, rate' = { rate with effectiveTo := some e, isCurrent := false }

theorem VersionsKept.shown {p q : Program}
    (h : VersionsKept (db.rateVersions p.id q.id) (db'.rateVersions p.id q.id)) :
    ∃ newer older, db'.versionsShown p q = newer ++ older ∧
      List.Forall₂ RateOut.Kept (db.versionsShown p q) older := by
  refine ⟨(((db'.rateVersions p.id q.id).drop (db.rateVersions p.id q.id).length).map fun row =>
      rateOut (toRateVersion row p.code q.code)).reverse,
    (((db'.rateVersions p.id q.id).take (db.rateVersions p.id q.id).length).map fun row =>
      rateOut (toRateVersion row p.code q.code)).reverse, ?_, ?_⟩
  · rw [← List.reverse_append, ← List.map_append, List.take_append_drop]
    rfl
  · refine List.rel_reverse (List.forall₂_map_left_iff.mpr (List.forall₂_map_right_iff.mpr ?_))
    refine h.older.imp ?_
    rintro r r' (rfl | ⟨hopen, e, rfl⟩)
    · exact .inl rfl
    · refine .inr ⟨hopen, e, ?_⟩
      simp [rateOut, toRateVersion, ConversionRate.closedAt, RateVersion.isCurrent]

end

section

variable {cfg : Config} {s₀ s s' : State} {as bs : List Action}

theorem run_versionsKept {db₀ : Database} (hseeded : Seeded db₀) (hsound : Sound db₀ s.store.db)
    (hs : TariffsSound s.store.db) (h : Runs.run (step cfg) s bs = some s')
    (sourceId destinationId : Nat) :
    VersionsKept (s.store.db.rateVersions sourceId destinationId)
      (s'.store.db.rateVersions sourceId destinationId) := by
  have hI := Runs.run_invariant
    (I := fun x => Sound db₀ x.store.db ∧ TariffsSound x.store.db ∧
      VersionsKept (s.store.db.rateVersions sourceId destinationId)
        (x.store.db.rateVersions sourceId destinationId))
    (fun x a x' hI hstep => ?_) ⟨hsound, hs, .refl _⟩ h
  · exact hI.2.2
  · obtain ⟨hx, htariffs, hkept⟩ := hI
    have hmove := (step_inv hstep).retariffed (hx.accountIds hseeded) htariffs
    exact ⟨hx.step hseeded hstep, hmove.sound htariffs,
      hkept.trans (hmove.versionsKept htariffs sourceId destinationId)⟩

theorem run_tariffed (h₀ : Initial s₀) (hs : TariffsSound s₀.store.db)
    (h : Runs.run (step cfg) s₀ as = some s) :
    ∀ t ∈ s.store.db.transfers, Tariffed s.store.db t := by
  have hI := Runs.run_invariant
    (I := fun x => Sound s₀.store.db x.store.db ∧ TariffsSound x.store.db ∧
      ∀ t ∈ x.store.db.transfers, Tariffed x.store.db t)
    (fun x a x' hI hstep => ?_) ⟨h₀.seeded.sound, hs, by simp [h₀.seeded.noTransfers]⟩ h
  · exact hI.2.2
  · obtain ⟨hx, htariffs, hall⟩ := hI
    have hn := hx.accountIds h₀.seeded
    have hmove := (step_inv hstep).retariffed hn htariffs
    have hx' := hx.step h₀.seeded hstep
    exact ⟨hx', hmove.sound htariffs, ((step_inv hstep).change hn).tariffed hx'.transferIds
      (hmove.versionsKept htariffs) hall⟩

/-- In every reachable state, whatever filters let the route through: the listing of a
route is numbered down to 1, current in its first row only and without gaps; at any
instant at most one of its rows is in force, and `get_route` prices with that row, or
without a rate; every transfer of the route has a snapshot of a listed row; and whatever
runs on, the listing keeps its rows, but for the end of the open one, under newer ones. -/
theorem rates_listed (h₀ : Initial s₀) (hs : TariffsSound s₀.store.db)
    (h : Runs.run (step cfg) s₀ as = some s) (collation : Collation) {p q : Program}
    (hp : p ∈ s.store.db.programs) (hq : q ∈ s.store.db.programs)
    {sourceProgram destinationProgram : Option String}
    (hsource : admits sourceProgram p.code = true)
    (hdestination : admits destinationProgram q.code = true) {rates : List RateOut}
    (hrates : s.store.db.ratesShown collation sourceProgram destinationProgram p q = rates) :
    RouteListed rates ∧
    (∀ now, (∀ x ∈ rates, ∀ y ∈ rates, x.inForce now = true → y.inForce now = true → x = y) ∧
      ∃ route, s.store.db.getRoute p.code q.code now = .ok route ∧
        route.rate = (rates.find? fun rate => rate.inForce now).map RateOut.rule) ∧
    (∀ t ∈ s.store.db.transfers, t.sourceProgramId = p.id → t.destinationProgramId = q.id →
      ∃ rate ∈ rates, rate.id = t.rateSnapshot.rateId ∧ rate.version = t.rateSnapshot.version ∧
        rate.numerator = t.rateSnapshot.numerator ∧
        rate.denominator = t.rateSnapshot.denominator) ∧
    ∀ bs s', Runs.run (step cfg) s bs = some s' → ∃ newer older,
      s'.store.db.ratesShown collation sourceProgram destinationProgram p q = newer ++ older ∧
        List.Forall₂ RateOut.Kept rates older := by
  have hsound := run_sound h₀ h
  obtain ⟨htariffs, -⟩ := run_tariffs h₀.seeded h₀.seeded.sound hs h
  have hids : (s.store.db.programs.map Program.id).Nodup := by
    rw [hsound.programs]
    exact h₀.seeded.programIds
  have hcodes : (s.store.db.programs.map Program.code).Nodup := by
    rw [hsound.programs]
    exact h₀.seeded.programCodes
  have hversioned := htariffs.rates.routes p.id q.id
  rw [ratesShown_eq hids hcodes hp hq hversioned hsource hdestination] at hrates
  subst hrates
  refine ⟨versionsShown_listed hversioned, ?_, ?_, ?_⟩
  · exact versionsShown_priced hversioned hcodes hp hq
  · intro t ht hsourceId hdestinationId
    obtain ⟨r, hr, htaken⟩ := run_tariffed h₀ hs h t ht
    rw [hsourceId, hdestinationId] at hr
    exact ⟨_, List.mem_reverse.mpr (List.mem_map_of_mem hr), htaken.rateId, htaken.version,
      htaken.numerator, htaken.denominator⟩
  · intro bs s' h'
    have hsame : s'.store.db.programs = s.store.db.programs :=
      (run_sound h₀ (Runs.run_append.mpr ⟨s, h, h'⟩)).programs.trans hsound.programs.symm
    obtain ⟨htariffs', -⟩ := run_tariffs h₀.seeded hsound htariffs h'
    rw [ratesShown_eq (by rw [hsame]; exact hids) (by rw [hsame]; exact hcodes)
      (by rw [hsame]; exact hp) (by rw [hsame]; exact hq) (htariffs'.rates.routes p.id q.id)
      hsource hdestination]
    exact (run_versionsKept h₀.seeded hsound htariffs h' p.id q.id).shown

end

/-- A transfer is completed, then its route gets a second version. -/
theorem rates_listed_repricedRun :
    ∃ s p q, Runs.run (step sampleConfig) freshState repricedRun = some s ∧
      p ∈ s.store.db.programs ∧ p.code = "NOVA_REWARDS" ∧
      q ∈ s.store.db.programs ∧ q.code = "SKYWARD_MILES" ∧
      RouteListed (s.store.db.ratesShown Collation.bytewise (some "NOVA_REWARDS") none p q) := by
  have hany : (Runs.run (step sampleConfig) freshState repricedRun).any (fun s =>
      s.store.db.programs.any (fun p => p.code == "NOVA_REWARDS") &&
        s.store.db.programs.any fun q => q.code == "SKYWARD_MILES") = true := by
    decide +kernel
  obtain ⟨s, hs, hboth⟩ := (Option.any_eq_true _ _).mp hany
  rw [Bool.and_eq_true, List.any_eq_true, List.any_eq_true] at hboth
  obtain ⟨⟨p, hp, hpcode⟩, q, hq, hqcode⟩ := hboth
  have hpcode := eq_of_beq hpcode
  refine ⟨s, p, q, hs, hp, hpcode, hq, eq_of_beq hqcode, ?_⟩
  exact (rates_listed freshState_initial freshState_tariffs hs Collation.bytewise hp hq
    (by rw [hpcode]; decide +kernel) rfl rfl).1

end LoyaltyTransfer
