/-
# `LoyaltyTransfer.RateVersions` — the versions of a route tile the time

"Exactly one version applies at any moment" is no constraint of the database:
only "at most one open version" is.  It follows from how `create_rate_version`
closes and opens at the same instant.

**Proved here.**  What one call does to the versions of its route
(`VersionAdded.route_cases`) and of every other route (`VersionAdded.other_route`),
that all routes stay versioned (`VersionAdded.sound`), and what `get_route` finds
among them (`getRoute_rate`).  Runs of calls are in `RateCalls`.
-/
import LoyaltyTransfer.RateAdmin
import LoyaltyTransfer.Lib.Timeline

namespace LoyaltyTransfer

open Transaction Timeline

/-! ## The versions of a route -/

/-- The versions of the route, in the order they were created. -/
def Database.rateVersions (db : Database) (sourceId destinationId : Nat) : List ConversionRate :=
  db.conversionRates.filter fun r => r.onRoute sourceId destinationId

structure RouteVersioned (versions : List ConversionRate) : Prop where
  tiles : Tiles ConversionRate.effectiveFrom ConversionRate.effectiveTo versions
  numbered : versions.map ConversionRate.version =
    (List.range versions.length).map fun (i : Nat) => (i : Int) + 1
  active : ∀ r ∈ versions, r.active = true

/-- The primary keys are unique, and every route is versioned. -/
structure RatesSound (db : Database) : Prop where
  ids : (db.conversionRates.map ConversionRate.id).Nodup
  routes : ∀ sourceId destinationId, RouteVersioned (db.rateVersions sourceId destinationId)

/-- Each route has no version yet, or one that is open. -/
structure RatesSeeded (db : Database) : Prop where
  ids : (db.conversionRates.map ConversionRate.id).Nodup
  routes : ∀ sourceId destinationId, db.rateVersions sourceId destinationId = [] ∨
    ∃ r, db.rateVersions sourceId destinationId = [r] ∧ r.version = 1 ∧ r.effectiveTo = none ∧
      r.active = true

theorem RatesSeeded.sound {db : Database} (h : RatesSeeded db) : RatesSound db where
  ids := h.ids
  routes := by
    intro sourceId destinationId
    rcases h.routes sourceId destinationId with hnone | ⟨r, hone, hversion, hopen, hactive⟩
    · rw [hnone]
      exact ⟨trivial, rfl, by simp⟩
    · rw [hone]
      refine ⟨hopen, by simp [hversion], ?_⟩
      intro x hx
      rw [List.mem_singleton.mp hx]
      exact hactive

/-- One open first version on each route that has one. -/
theorem ratesSeeded_of_rows {db : Database}
    (hids : (db.conversionRates.map ConversionRate.id).Nodup)
    (hroutes : (db.conversionRates.map fun r =>
      (r.sourceProgramId, r.destinationProgramId)).Nodup)
    (hrows : ∀ r ∈ db.conversionRates, r.version = 1 ∧ r.effectiveTo = none ∧ r.active = true) :
    RatesSeeded db where
  ids := hids
  routes := by
    intro sourceId destinationId
    rcases List.eq_nil_or_concat (db.rateVersions sourceId destinationId) with
      hnil | ⟨before, r, hversions⟩
    · exact .inl hnil
    · have hr : r ∈ db.rateVersions sourceId destinationId := by
        rw [hversions, List.concat_eq_append]
        exact List.mem_append_right _ (List.mem_singleton_self r)
      obtain ⟨hrow, hon⟩ := List.mem_filter.mp hr
      obtain ⟨hs, hd⟩ := of_decide_eq_true hon
      refine .inr ⟨r, ?_, hrows r hrow⟩
      rw [← Table.filter_key hroutes hrow, Database.rateVersions]
      refine List.filter_congr fun x _ => ?_
      simp only [ConversionRate.onRoute, Prod.mk.injEq, hs, hd]

section

variable {versions : List ConversionRate}

theorem RouteVersioned.isCurrent_iff (h : RouteVersioned versions) {r : ConversionRate}
    (hr : r ∈ versions) : r.isCurrent = true ↔ versions.getLast? = some r := by
  rw [ConversionRate.isCurrent, h.active r hr, Bool.true_and, Option.isNone_iff_eq_none]
  exact h.tiles.open_iff hr

/-- The open version is the last one. -/
theorem RouteVersioned.find_current (h : RouteVersioned versions) :
    (versions.find? fun r => r.isCurrent) = versions.getLast? := by
  cases hfind : versions.find? fun r => r.isCurrent with
  | some r =>
      have hcurrent := List.find?_some hfind
      exact ((h.isCurrent_iff (List.mem_of_find?_eq_some hfind)).mp hcurrent).symm
  | none =>
      cases hlast : versions.getLast? with
      | none => rfl
      | some r =>
          have hr := List.mem_of_getLast? hlast
          exact absurd ((h.isCurrent_iff hr).mpr hlast) (List.find?_eq_none.mp hfind r hr)

theorem foldl_max_range (n : Nat) :
    ((List.range n).map fun (i : Nat) => (i : Int) + 1).foldl max 0 = n := by
  induction n with
  | zero => rfl
  | succ n ih =>
      rw [List.range_succ, List.map_append, List.foldl_append, ih]
      simp only [List.map_cons, List.map_nil, List.foldl_cons, List.foldl_nil]
      push_cast
      omega

theorem RouteVersioned.latestVersion_eq (h : RouteVersioned versions) :
    latestVersion versions = versions.length := by
  rw [latestVersion, h.numbered]
  exact foldl_max_range _

end

/-! ## One replacement -/

/-- The row `create_rate_version` inserts. -/
def NewRate.row (newRate : NewRate) (id sourceId destinationId : Nat) (latest : Int)
    (changedAt : Time) : ConversionRate where
  id := id
  sourceProgramId := sourceId
  destinationProgramId := destinationId
  numerator := newRate.numerator
  denominator := newRate.denominator
  minSourcePoints := newRate.minSourcePoints
  sourceIncrement := newRate.sourceIncrement
  maxSourcePoints := newRate.maxSourcePoints
  version := latest + 1
  effectiveFrom := changedAt
  effectiveTo := none
  active := true

/-- The writes of `create_rate_version`, from what it read under the lock. -/
def writeVersion (newRate : NewRate) (sourceId destinationId : Nat) (changedAt : Time)
    (current : Option ConversionRate) (latest : Int) : DbTx ConversionRate := do
  let db ← get
  closeCurrent current changedAt
  let created :=
    newRate.row (Table.nextId ConversionRate.id db.conversionRates) sourceId destinationId latest
      changedAt
  insertRate created
  pure created

/-- The version with its end set. -/
def ConversionRate.closedAt (r : ConversionRate) (changedAt : Time) : ConversionRate :=
  { r with effectiveTo := some changedAt }

@[simp] theorem closedAt_id (r : ConversionRate) (changedAt : Time) :
    (r.closedAt changedAt).id = r.id := rfl

/-- The rows with the open version of the route closed. -/
def closeOpen (changedAt : Time) (sourceId destinationId : Nat) (rates : List ConversionRate) :
    List ConversionRate :=
  rates.map fun r =>
    if r.onRoute sourceId destinationId && r.isCurrent then r.closedAt changedAt else r

section

variable {db db' : Database} {newRate : NewRate} {sourceId destinationId : Nat} {changedAt : Time}
  {created : ConversionRate}

theorem closeCurrent_ok {current : Option ConversionRate} {u : Unit} :
    (closeCurrent current changedAt).run db = .ok (u, db') ↔
      (current = none ∧ db' = db) ∨
        ∃ r, current = some r ∧ (r.closedAt changedAt).checked = .ok () ∧
          db' = { db with
            conversionRates :=
              Table.replace ConversionRate.id (r.closedAt changedAt) db.conversionRates } := by
  cases current with
  | none =>
      simp only [closeCurrent, Tx.pure_ok]
      constructor
      · intro h
        cases h
        exact .inl ⟨trivial, rfl⟩
      · rintro (⟨-, rfl⟩ | ⟨r, hr, -⟩)
        · rfl
        · cases hr
  | some r =>
      simp only [closeCurrent, closeRate, Tx.bind_ok, Tx.get_ok, Tx.ofExcept_ok, Tx.set_ok]
      constructor
      · rintro ⟨_, _, e₁, _, _, ⟨_, hck, e₂⟩, e₃⟩
        cases e₁; cases e₂; cases e₃
        exact .inr ⟨r, rfl, hck, rfl⟩
      · rintro (⟨hr, -⟩ | ⟨r', hr, hck, rfl⟩)
        · cases hr
        · cases hr
          exact ⟨_, _, rfl, _, _, ⟨_, hck, rfl⟩, rfl⟩

theorem insertRate_ok {r : ConversionRate} {u : Unit}
    (h : (insertRate r).run db = .ok (u, db')) :
    r.checked = .ok () ∧ db' = { db with conversionRates := db.conversionRates ++ [r] } := by
  simp only [insertRate, Tx.bind_ok, Tx.get_ok, Tx.ofExcept_ok, Tx.failIf_ok, Tx.set_ok] at h
  obtain ⟨_, _, e₁, _, _, ⟨_, hck, e₂⟩, _, _, ⟨-, e₃⟩, _, _, ⟨-, e₄⟩, e₅⟩ := h
  cases e₁; cases e₂; cases e₃; cases e₄; cases e₅
  exact ⟨hck, rfl⟩

/-- A window that ends not later than it starts is refused. -/
theorem rate_checked_window {r : ConversionRate} (h : r.checked = .ok ()) {e : Time}
    (he : r.effectiveTo = some e) : r.effectiveFrom < e := by
  have hcheck : r.violatedCheck = none := by
    simp only [ConversionRate.checked] at h
    split at h
    · cases h
    · assumption
  simp only [ConversionRate.violatedCheck, ite_some_eq_none, he, Option.any_some,
    decide_eq_true_eq] at hcheck
  exact not_le.mp hcheck.2.2.1

/-- The row the UPDATE names by its key is the open version of the route. -/
theorem replace_eq_closeOpen (h : RatesSound db) {last : ConversionRate}
    (hlast : (db.rateVersions sourceId destinationId).getLast? = some last) :
    Table.replace ConversionRate.id (last.closedAt changedAt) db.conversionRates =
      closeOpen changedAt sourceId destinationId db.conversionRates := by
  have hroute := h.routes sourceId destinationId
  have hmem := List.mem_of_getLast? hlast
  obtain ⟨hrow, honRoute⟩ := List.mem_filter.mp hmem
  refine List.map_congr_left fun x hx => ?_
  by_cases hid : x.id = last.id
  · obtain rfl := Table.eq_of_key_eq h.ids hx hrow hid
    have hcurrent := (hroute.isCurrent_iff hmem).mpr hlast
    simp [honRoute, hcurrent]
  · have hnot : (x.onRoute sourceId destinationId && x.isCurrent) = false := by
      rw [Bool.eq_false_iff]
      intro hboth
      obtain ⟨hon, hcurrent⟩ := Bool.and_eq_true_iff.mp hboth
      have hx' : x ∈ db.rateVersions sourceId destinationId := List.mem_filter.mpr ⟨hx, hon⟩
      have heq := (hroute.isCurrent_iff hx').mp hcurrent
      rw [hlast] at heq
      cases heq
      exact hid rfl
    simp [hid, hnot]

/-- What a call that commits leaves: the open version closed, the next one open. -/
theorem writeVersion_ok (h : RatesSound db)
    (hrun : (writeVersion newRate sourceId destinationId changedAt
      ((db.rateVersions sourceId destinationId).find? fun r => r.isCurrent)
      (latestVersion (db.rateVersions sourceId destinationId))).run db = .ok (created, db')) :
    created = newRate.row (Table.nextId ConversionRate.id db.conversionRates) sourceId
        destinationId (db.rateVersions sourceId destinationId).length changedAt ∧
      (∀ last, (db.rateVersions sourceId destinationId).getLast? = some last →
        last.effectiveFrom < changedAt) ∧
      db' = { db with
        conversionRates :=
          closeOpen changedAt sourceId destinationId db.conversionRates ++ [created] } := by
  have hroute := h.routes sourceId destinationId
  rw [hroute.find_current, hroute.latestVersion_eq] at hrun
  simp only [writeVersion, Tx.bind_ok, Tx.get_ok, Tx.pure_ok] at hrun
  obtain ⟨_, _, e₁, _, db₁, hclose, _, _, hins, e₂⟩ := hrun
  cases e₁; cases e₂
  obtain ⟨-, rfl⟩ := insertRate_ok hins
  refine ⟨rfl, ?_⟩
  rcases closeCurrent_ok.mp hclose with ⟨hnone, heq⟩ | ⟨last, hlast, hck, heq⟩
  · have hempty : db.rateVersions sourceId destinationId = [] := List.getLast?_eq_none_iff.mp hnone
    have hsame : closeOpen changedAt sourceId destinationId db.conversionRates =
        db.conversionRates := by
      refine (List.map_congr_left fun x hx => ?_).trans (List.map_id _)
      have hnot : x.onRoute sourceId destinationId = false := by
        rw [Bool.eq_false_iff]
        exact List.filter_eq_nil_iff.mp hempty x hx
      simp [hnot]
    refine ⟨?_, by rw [hsame, heq]⟩
    intro last hlast
    rw [hnone] at hlast
    cases hlast
  · refine ⟨?_, by rw [heq, replace_eq_closeOpen h hlast]⟩
    intro last' hlast'
    rw [hlast] at hlast'
    cases hlast'
    exact rate_checked_window hck rfl

end

/-! ## What a replacement does to each route -/

/-- The database with one more version of the route. -/
structure VersionAdded (db : Database) (sourceId destinationId : Nat) (changedAt : Time)
    (created : ConversionRate) (db' : Database) : Prop where
  row : ∃ newRate : NewRate,
    created = newRate.row (Table.nextId ConversionRate.id db.conversionRates) sourceId
      destinationId (db.rateVersions sourceId destinationId).length changedAt
  later : ∀ last, (db.rateVersions sourceId destinationId).getLast? = some last →
    last.effectiveFrom < changedAt
  rates : db'.conversionRates =
    closeOpen changedAt sourceId destinationId db.conversionRates ++ [created]

theorem writeVersion_added {db db' : Database} {newRate : NewRate} {sourceId destinationId : Nat}
    {changedAt : Time} {created : ConversionRate} (h : RatesSound db)
    (hrun : (writeVersion newRate sourceId destinationId changedAt
      ((db.rateVersions sourceId destinationId).find? fun r => r.isCurrent)
      (latestVersion (db.rateVersions sourceId destinationId))).run db = .ok (created, db')) :
    VersionAdded db sourceId destinationId changedAt created db' ∧ db'.programs = db.programs := by
  obtain ⟨hrow, hlater, rfl⟩ := writeVersion_ok h hrun
  exact ⟨⟨⟨newRate, hrow⟩, hlater, rfl⟩, rfl⟩

/-- A whole call, when nothing runs in between. -/
theorem createRateVersion_added {db db' : Database} {newRate : NewRate} {changedAt : Time}
    {created : ConversionRate} (h : RatesSound db)
    (hrun : (createRateVersion newRate changedAt).run db = .ok (created, db')) :
    ∃ sourceId destinationId, VersionAdded db sourceId destinationId changedAt created db' := by
  simp only [createRateVersion, Tx.bind_ok, Tx.get_ok, Tx.ofExcept_ok, Tx.pure_ok] at hrun
  obtain ⟨_, _, ⟨_, -, e₁⟩, _, _, e₂, source, _, ⟨_, -, e₃⟩, destination, _, ⟨_, -, e₄⟩, _, _,
    hclose, _, _, hins, e₅⟩ := hrun
  cases e₁; cases e₂; cases e₃; cases e₄; cases e₅
  have hwrite : (writeVersion newRate source.id destination.id changedAt
      ((db.rateVersions source.id destination.id).find? fun r => r.isCurrent)
      (latestVersion (db.rateVersions source.id destination.id))).run db =
        .ok (newRate.row (Table.nextId ConversionRate.id db.conversionRates) source.id
          destination.id (latestVersion (db.rateVersions source.id destination.id)) changedAt,
          db') := by
    simp only [writeVersion, Tx.bind_ok, Tx.get_ok, Tx.pure_ok]
    exact ⟨_, _, rfl, _, _, hclose, _, _, hins, rfl⟩
  exact ⟨source.id, destination.id, (writeVersion_added h hwrite).1⟩

/-- The version is as it was, or it was open and is closed now. -/
def ConversionRate.Kept (r r' : ConversionRate) : Prop :=
  r' = r ∨ r.effectiveTo = none ∧ ∃ e, r' = r.closedAt e

theorem ConversionRate.Kept.trans {a b c : ConversionRate} (h : a.Kept b) (h' : b.Kept c) :
    a.Kept c := by
  rcases h with rfl | ⟨hopen, e, rfl⟩
  · exact h'
  · rcases h' with rfl | ⟨hopen', -⟩
    · exact .inr ⟨hopen, e, rfl⟩
    · cases hopen'

section

variable {db db' : Database} {sourceId destinationId : Nat} {changedAt : Time}
  {created : ConversionRate}

theorem onRoute_closeOpen (r : ConversionRate) (sourceId' destinationId' : Nat) :
    (if r.onRoute sourceId destinationId && r.isCurrent then r.closedAt changedAt else r).onRoute
      sourceId' destinationId' = r.onRoute sourceId' destinationId' := by
  split <;> rfl

theorem closeOpen_ids (rates : List ConversionRate) :
    (closeOpen changedAt sourceId destinationId rates).map ConversionRate.id =
      rates.map ConversionRate.id := by
  rw [closeOpen, List.map_map]
  refine List.map_congr_left fun r _ => ?_
  simp only [Function.comp_apply]
  split <;> rfl

theorem rateVersions_closeOpen (rates : List ConversionRate) (sourceId' destinationId' : Nat) :
    (closeOpen changedAt sourceId destinationId rates).filter
        (fun r => r.onRoute sourceId' destinationId') =
      closeOpen changedAt sourceId destinationId
        (rates.filter fun r => r.onRoute sourceId' destinationId') := by
  rw [closeOpen, List.filter_map]
  refine congrArg _ (List.filter_congr fun r _ => ?_)
  exact onRoute_closeOpen r _ _

theorem VersionAdded.onRoute (h : VersionAdded db sourceId destinationId changedAt created db') :
    created.onRoute sourceId destinationId = true := by
  obtain ⟨newRate, rfl⟩ := h.row
  simp [ConversionRate.onRoute, NewRate.row]

theorem VersionAdded.same_route
    (h : VersionAdded db sourceId destinationId changedAt created db') :
    db'.rateVersions sourceId destinationId =
      closeOpen changedAt sourceId destinationId (db.rateVersions sourceId destinationId) ++
        [created] := by
  rw [Database.rateVersions, h.rates, List.filter_append, rateVersions_closeOpen,
    List.filter_cons_of_pos (by simpa using h.onRoute)]
  rfl

/-- Other routes keep their versions. -/
theorem VersionAdded.other_route
    (h : VersionAdded db sourceId destinationId changedAt created db')
    {sourceId' destinationId' : Nat}
    (hne : ¬ (sourceId' = sourceId ∧ destinationId' = destinationId)) :
    db'.rateVersions sourceId' destinationId' = db.rateVersions sourceId' destinationId' := by
  have hoff : ∀ r : ConversionRate, r.onRoute sourceId' destinationId' = true →
      r.onRoute sourceId destinationId = false := by
    intro r hr
    simp only [ConversionRate.onRoute, decide_eq_true_eq, decide_eq_false_iff_not] at hr ⊢
    rintro ⟨hs, hd⟩
    exact hne ⟨hr.1.symm.trans hs, hr.2.symm.trans hd⟩
  have hcreated : created.onRoute sourceId' destinationId' = false := by
    rw [Bool.eq_false_iff]
    intro hon
    have := h.onRoute
    rw [hoff created hon] at this
    cases this
  rw [Database.rateVersions, h.rates, List.filter_append, rateVersions_closeOpen,
    List.filter_cons_of_neg (by simp [hcreated]), List.filter_nil, List.append_nil]
  refine (List.map_congr_left fun r hr => ?_).trans (List.map_id _)
  have hon := (List.mem_filter.mp hr).2
  simp [hoff r hon]

theorem mem_rateVersions {r : ConversionRate} :
    r ∈ db.rateVersions sourceId destinationId ↔
      r ∈ db.conversionRates ∧ r.onRoute sourceId destinationId = true := List.mem_filter

/-- Closing the open version of a route touches its last version only. -/
theorem RouteVersioned.closeOpen_eq
    (h : RouteVersioned (db.rateVersions sourceId destinationId)) (changedAt : Time) :
    (db.rateVersions sourceId destinationId = [] ∧
      closeOpen changedAt sourceId destinationId (db.rateVersions sourceId destinationId) = []) ∨
    ∃ before last, db.rateVersions sourceId destinationId = before ++ [last] ∧
      closeOpen changedAt sourceId destinationId (db.rateVersions sourceId destinationId) =
        before ++ [last.closedAt changedAt] := by
  rcases List.eq_nil_or_concat (db.rateVersions sourceId destinationId) with
    hnil | ⟨before, last, hversions⟩
  · exact .inl ⟨hnil, by rw [hnil]; rfl⟩
  · rw [List.concat_eq_append] at hversions
    refine .inr ⟨before, last, hversions, ?_⟩
    have hon : ∀ r ∈ before ++ [last], r.onRoute sourceId destinationId = true := by
      intro r hr
      rw [← hversions] at hr
      exact (mem_rateVersions.mp hr).2
    rw [hversions] at h ⊢
    have hlast : last.isCurrent = true :=
      (h.isCurrent_iff (List.mem_append_right _ (List.mem_singleton_self _))).mpr (by simp)
    rw [closeOpen, List.map_append, List.map_singleton,
      hon last (List.mem_append_right _ (List.mem_singleton_self _)), hlast]
    refine congrArg (· ++ _) ((List.map_congr_left fun r hr => ?_).trans (List.map_id _))
    have hnot : r.isCurrent = false := by
      rw [ConversionRate.isCurrent, Option.isNone_eq_false_iff.mpr
        (Option.isSome_iff_ne_none.mpr (h.tiles.closed_before r hr)), Bool.and_false]
    simp [hnot]

theorem VersionAdded.route_cases (h : VersionAdded db sourceId destinationId changedAt created db')
    (hs : RatesSound db) :
    (db.rateVersions sourceId destinationId = [] ∧
      db'.rateVersions sourceId destinationId = [created]) ∨
    ∃ before last, db.rateVersions sourceId destinationId = before ++ [last] ∧
      last.effectiveFrom < changedAt ∧
      db'.rateVersions sourceId destinationId =
        before ++ [last.closedAt changedAt, created] := by
  have hroute := h.same_route
  rcases (hs.routes sourceId destinationId).closeOpen_eq changedAt with
    ⟨hnil, hclosed⟩ | ⟨before, last, hversions, hclosed⟩
  · rw [hclosed] at hroute
    exact .inl ⟨hnil, hroute⟩
  · rw [hclosed, List.append_assoc] at hroute
    exact .inr ⟨before, last, hversions, h.later last (by rw [hversions]; simp), hroute⟩

/-- A replacement keeps every route versioned. -/
theorem VersionAdded.sound (h : VersionAdded db sourceId destinationId changedAt created db')
    (hs : RatesSound db) : RatesSound db' where
  ids := by
    have hkept : (closeOpen changedAt sourceId destinationId db.conversionRates).map
        ConversionRate.id = db.conversionRates.map ConversionRate.id := closeOpen_ids _
    obtain ⟨newRate, hrow⟩ := h.row
    rw [h.rates]
    refine Table.nodup_append_nextId (hkept ▸ hs.ids) ?_
    rw [hrow, Table.nextId_congr hkept]
    rfl
  routes := by
    intro sourceId' destinationId'
    by_cases hsame : sourceId' = sourceId ∧ destinationId' = destinationId
    · obtain ⟨rfl, rfl⟩ := hsame
      obtain ⟨newRate, hrow⟩ := h.row
      have hroute := hs.routes sourceId' destinationId'
      rcases h.route_cases hs with ⟨hnil, hversions⟩ | ⟨before, last, hold, hlt, hversions⟩
      · rw [hversions, hrow, hnil]
        exact ⟨rfl, rfl, fun r hr => by rw [List.mem_singleton.mp hr]; rfl⟩
      · rw [hold] at hroute hrow
        rw [hversions, hrow]
        refine ⟨?_, ?_, ?_⟩
        · exact hroute.tiles.extend hlt rfl rfl rfl
        · have hnumbered := hroute.numbered
          rw [List.map_append, List.length_append, List.length_singleton] at hnumbered
          have hlen : ∀ x y : ConversionRate,
              (before ++ [x, y]).length = before.length + 1 + 1 := by
            intro x y
            simp
          rw [hlen, List.range_succ, List.map_append, List.map_append, ← hnumbered]
          simp [ConversionRate.closedAt, NewRate.row]
        · intro r hr
          have hactive := hroute.active
          rcases List.mem_append.mp hr with hr | hr
          · exact hactive r (List.mem_append_left _ hr)
          · rcases List.mem_cons.mp hr with rfl | hr
            · exact hactive last (List.mem_append_right _ (List.mem_singleton_self _))
            · rw [List.mem_singleton.mp hr]
              rfl
    · rw [h.other_route hsame]
      exact hs.routes _ _

/-- Every version is kept, but for the end of the open one. -/
theorem VersionAdded.kept (h : VersionAdded db sourceId destinationId changedAt created db')
    {r : ConversionRate} (hr : r ∈ db.conversionRates) :
    ∃ r' ∈ db'.conversionRates, r.Kept r' := by
  refine ⟨_, by rw [h.rates]; exact List.mem_append_left _ (List.mem_map_of_mem hr), ?_⟩
  split
  · rename_i hopen
    simp only [Bool.and_eq_true, ConversionRate.isCurrent, Option.isNone_iff_eq_none] at hopen
    exact .inr ⟨hopen.2.2, changedAt, rfl⟩
  · exact .inl rfl

end

/-- What was in force before the instant of the replacement stays in force. -/
theorem VersionAdded.covers {db db' : Database} {sourceId destinationId : Nat} {changedAt : Time}
    {created : ConversionRate} (h : VersionAdded db sourceId destinationId changedAt created db')
    (hs : RatesSound db) {sourceId' destinationId' : Nat} {r : ConversionRate}
    (hr : r ∈ db.rateVersions sourceId' destinationId') {now : Time}
    (hcovers : Covers ConversionRate.effectiveFrom ConversionRate.effectiveTo r now)
    (hpast : sourceId' = sourceId ∧ destinationId' = destinationId → now < changedAt) :
    ∃ r' ∈ db'.rateVersions sourceId' destinationId', r.Kept r' ∧
      Covers ConversionRate.effectiveFrom ConversionRate.effectiveTo r' now := by
  by_cases hsame : sourceId' = sourceId ∧ destinationId' = destinationId
  · have hlt := hpast hsame
    obtain ⟨rfl, rfl⟩ := hsame
    rcases h.route_cases hs with ⟨hnil, -⟩ | ⟨before, last, hold, -, hversions⟩
    · rw [hnil] at hr
      cases hr
    · have htiles := (hs.routes sourceId' destinationId').tiles
      rw [hold] at hr htiles
      rw [hversions]
      rcases List.mem_append.mp hr with hr | hr
      · exact ⟨r, List.mem_append_left _ hr, .inl rfl, hcovers⟩
      · obtain rfl := List.mem_singleton.mp hr
        refine ⟨r.closedAt changedAt, List.mem_append_right _ (List.mem_cons_self ..),
          .inr ⟨htiles.last_open, changedAt, rfl⟩, ?_⟩
        have hstart : (r.closedAt changedAt).effectiveFrom = r.effectiveFrom := rfl
        exact (covers_closed htiles.last_open hstart rfl hlt).mpr hcovers
  · rw [h.other_route hsame]
    exact ⟨r, hr, .inl rfl, hcovers⟩

/-! ## What `get_route` finds -/

section

variable {db : Database} {sourceId destinationId : Nat} {now : Time}

theorem inForce_iff {r : ConversionRate} (hactive : r.active = true) :
    r.inForce now = true ↔
      Covers ConversionRate.effectiveFrom ConversionRate.effectiveTo r now := by
  simp only [ConversionRate.inForce, hactive, Bool.true_and, Bool.and_eq_true, decide_eq_true_eq,
    Covers]
  cases r.effectiveTo with
  | none => simp
  | some e => simp

/-- Sorting finds a version in force, if there is one, and nothing else. -/
theorem head_insertionSort {ρ : Type} {le : ρ → ρ → Prop} [DecidableRel le] {rows : List ρ} {r : ρ}
    (hr : r ∈ rows) (honly : ∀ y ∈ rows, y = r) : (rows.insertionSort le).head? = some r := by
  have hmem : ∀ y, y ∈ rows.insertionSort le ↔ y ∈ rows := fun y => List.mem_insertionSort le
  cases hsorted : rows.insertionSort le with
  | nil =>
      have := (hmem r).mpr hr
      rw [hsorted] at this
      cases this
  | cons y ys =>
      have hy := (hmem y).mp (by rw [hsorted]; exact List.mem_cons_self ..)
      rw [honly y hy]
      rfl

/-- The rate row `get_route` selects. -/
def Database.rateAt (db : Database) (sourceId destinationId : Nat) (now : Time) :
    Option ConversionRate :=
  ((db.conversionRates.filter fun r =>
    r.onRoute sourceId destinationId && r.inForce now).insertionSort
      fun a b => b.effectiveFrom ≤ a.effectiveFrom).head?

/-- The row is the version in force. -/
theorem rateAt_eq (h : RouteVersioned (db.rateVersions sourceId destinationId))
    {r : ConversionRate} (hr : r ∈ db.rateVersions sourceId destinationId)
    (hcovers : Covers ConversionRate.effectiveFrom ConversionRate.effectiveTo r now) :
    db.rateAt sourceId destinationId now = some r := by
  refine head_insertionSort ?_ ?_
  · obtain ⟨hrow, hon⟩ := mem_rateVersions.mp hr
    exact List.mem_filter.mpr ⟨hrow, by rw [hon, (inForce_iff (h.active r hr)).mpr hcovers]; rfl⟩
  · intro y hy
    obtain ⟨hrow, hboth⟩ := List.mem_filter.mp hy
    obtain ⟨hon, hin⟩ := Bool.and_eq_true_iff.mp hboth
    have hy' : y ∈ db.rateVersions sourceId destinationId := mem_rateVersions.mpr ⟨hrow, hon⟩
    exact h.tiles.covers_unique hy' hr ((inForce_iff (h.active y hy')).mp hin) hcovers

/-- `get_route` prices with the version in force. -/
theorem getRoute_rate (h : RouteVersioned (db.rateVersions sourceId destinationId))
    {r : ConversionRate} (hr : r ∈ db.rateVersions sourceId destinationId)
    (hcovers : Covers ConversionRate.effectiveFrom ConversionRate.effectiveTo r now)
    {sourceCode destinationCode : String} {source destination : ProgramRef}
    (hsource : db.loadProgram sourceCode = .ok source) (hsid : source.id = sourceId)
    (hdestination : db.loadProgram destinationCode = .ok destination)
    (hdid : destination.id = destinationId) :
    ∃ route, db.getRoute sourceCode destinationCode now = .ok route ∧
      route.rate = some (toRateRule r) := by
  have hfound := rateAt_eq h hr hcovers
  rw [← hsid, ← hdid, Database.rateAt] at hfound
  refine ⟨_, by simp only [Database.getRoute, hsource, hdestination]; rfl, ?_⟩
  simp only [hfound, Option.map_some]

end

end LoyaltyTransfer
