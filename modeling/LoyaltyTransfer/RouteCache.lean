/-
# `LoyaltyTransfer.RouteCache` — quotes from the cache

`app/cache/rate_cache.py` and `QuoteService.quote` of `rate_engine.py`.  Any
number of quotes are under way at once, each through

    started    nothing read yet
    looking    has read its clock, the cache is asked next
    loading    not in the cache, PostgreSQL is asked next
    storing    loaded for the instant it read, stored in the cache next
    answered

and time may pass between any two steps.  Redis drops an entry when its time to
live is over, and may lose one earlier or not answer.  No row changes.

**Proved here.**  The time to live counts from when the entry is stored, but is
cut to what was left of `valid_until` when the route was loaded.  In every run in
which no entry is stored too late for that, and no quote finds one loaded after a
bonus that it still saw had ended, every quote answers as it would from PostgreSQL
and no entry is served at or after its `valid_until` (`cached_quotes_agree`).
With a store that comes late it is (`late_store_misprices`).
-/
import LoyaltyTransfer.Routes
import LoyaltyTransfer.Engine
import LoyaltyTransfer.Seed
import LoyaltyTransfer.Lib.Double
import LoyaltyTransfer.Lib.Runs

namespace LoyaltyTransfer

open Transaction Timeline

/-! ## `QuoteService` -/

structure QuoteRequest where
  sourceProgram : String
  destinationProgram : String
  sourcePoints : Int
  deriving DecidableEq

def QuoteRequest.valid (body : QuoteRequest) : Bool :=
  programCodeFormat body.sourceProgram && programCodeFormat body.destinationProgram &&
    decide (0 < body.sourcePoints) && decide (body.sourcePoints ≤ maxPoints)

structure Quote where
  sourceProgram : String
  destinationProgram : String
  conversion : Conversion
  quotedAt : Time
  expiresAt : Time
  deriving DecidableEq

structure QuoteConfig where
  quoteTtl : Time
  maxTransferPoints : Option Int
  rateCacheTtlSeconds : Nat

/-- The checks `quote` makes before it reads its clock. -/
def checkQuote (cfg : QuoteConfig) (body : QuoteRequest) : Except DomainError Unit := do
  ensureDifferentPrograms body.sourceProgram body.destinationProgram
  ensureWithinPlatformLimit body.sourcePoints cfg.maxTransferPoints

/-- What `quote` makes of the route it was given. -/
def priceQuote (cfg : QuoteConfig) (body : QuoteRequest) (now : Time) (route : RouteConfig) :
    Except DomainError Quote := do
  let rate ← ensureRouteUsable route
  let conversion ← calculateConversion rate body.sourcePoints route.bonus now
  pure {
    sourceProgram := body.sourceProgram
    destinationProgram := body.destinationProgram
    conversion
    quotedAt := now
    expiresAt := now + cfg.quoteTtl }

/-- `QuoteService.quote`, when its provider answers at once. -/
def quote (cfg : QuoteConfig) (getRoute : String → String → Time → Except DomainError RouteConfig)
    (body : QuoteRequest) (now : Time) : Except DomainError Quote := do
  checkQuote cfg body
  let route ← getRoute body.sourceProgram body.destinationProgram now
  priceQuote cfg body now route

/-! ## `RouteCache` -/

def routeCacheKey (sourceCode destinationCode : String) : String :=
  s!"rate-engine:v1:route:{sourceCode}:{destinationCode}"

/-- `int(delta.total_seconds() * 1000)`: each of the two operations rounds. -/
def totalMilliseconds (delta : Time) : Int :=
  Double.truncate (Double.nearest (Double.nearest delta * 1000))

/-- The `px` of an entry for a route that was loaded for the instant `asked`. -/
def ttlMs (cfg : QuoteConfig) (route : RouteConfig) (asked : Time) : Int :=
  match route.validUntil with
  | some v => min (cfg.rateCacheTtlSeconds * 1000) (totalMilliseconds (v - asked))
  | none => cfg.rateCacheTtlSeconds * 1000

/-- An entry in Redis.  `pricedAt`, the instant the route was loaded for, is not
part of it; it is kept for the statements. -/
structure CacheEntry where
  route : RouteConfig
  pricedAt : Time
  expiresAt : Time

abbrev Redis := String → Option CacheEntry

/-- `RouteCache.get`, when Redis answers. -/
def Redis.get (redis : Redis) (now : Time) (sourceCode destinationCode : String) :
    Option RouteConfig :=
  ((redis (routeCacheKey sourceCode destinationCode)).filter fun e =>
    decide (now < e.expiresAt)).map CacheEntry.route

/-- `RouteCache.set`, when Redis answers, at the instant `now`. -/
def Redis.store (redis : Redis) (cfg : QuoteConfig) (now : Time) (route : RouteConfig)
    (asked : Time) : Redis :=
  if ttlMs cfg route asked ≤ 0 then redis
  else Function.update redis (routeCacheKey route.source.code route.destination.code)
    (some ⟨route, asked, now + ttlMs cfg route asked / 1000⟩)

/-! ## The system -/

inductive QuotePc where
  | started
  | looking (asked : Time)
  | loading (asked : Time)
  | storing (asked : Time) (route : RouteConfig)
  | answered (asked : Time) (result : Except DomainError Quote)

/-- One call of `QuoteService.quote` with a `CachedRouteProvider`. -/
structure QuoteCall where
  body : QuoteRequest
  pc : QuotePc

inductive QuoteAction where
  | begin
  | lookup (reachable : Bool)
  | load
  | store (reachable : Bool)

inductive CacheAction where
  | pass (duration : Time)
  | arrive (body : QuoteRequest)
  | quote (i : Nat) (a : QuoteAction)
  | lose (key : String)

structure CacheSystem where
  now : Time
  redis : Redis
  calls : List QuoteCall

def quoteStep (cfg : QuoteConfig) (db : Database) (now : Time) (redis : Redis) (c : QuoteCall) :
    QuoteAction → Option (Redis × QuotePc)
  | .begin =>
      match c.pc with
      | .started =>
          match checkQuote cfg c.body with
          | .error e => some (redis, .answered now (.error e))
          | .ok () => some (redis, .looking now)
      | _ => none
  | .lookup reachable =>
      match c.pc with
      | .looking asked =>
          match if reachable then redis.get now c.body.sourceProgram c.body.destinationProgram
            else none with
          | some route => some (redis, .answered asked (priceQuote cfg c.body asked route))
          | none => some (redis, .loading asked)
      | _ => none
  | .load =>
      match c.pc with
      | .loading asked =>
          match db.getRoute c.body.sourceProgram c.body.destinationProgram asked with
          | .error e => some (redis, .answered asked (.error e))
          | .ok route => some (redis, .storing asked route)
      | _ => none
  | .store reachable =>
      match c.pc with
      | .storing asked route =>
          some (if reachable then redis.store cfg now route asked else redis,
            .answered asked (priceQuote cfg c.body asked route))
      | _ => none

def cacheStep (cfg : QuoteConfig) (db : Database) (s : CacheSystem) :
    CacheAction → Option CacheSystem
  | .pass duration => if 0 ≤ duration then some { s with now := s.now + duration } else none
  | .arrive body =>
      if body.valid then some { s with calls := s.calls ++ [⟨body, .started⟩] } else none
  | .quote i a =>
      match s.calls[i]? with
      | some c => (quoteStep cfg db s.now s.redis c a).map fun (redis, pc) =>
          { s with redis, calls := s.calls.set i { c with pc } }
      | none => none
  | .lose key => some { s with redis := Function.update s.redis key none }

/-- Nothing is cached and no quote is under way. -/
structure CacheSystem.Initial (s : CacheSystem) : Prop where
  redis : s.redis = fun _ => none
  calls : s.calls = []

/-! ## One step, inverted -/

inductive QuoteMove (cfg : QuoteConfig) (db : Database) (now : Time) (redis : Redis)
    (c : QuoteCall) : QuoteAction → Redis → QuotePc → Prop
  | refused {e : DomainError} (hpc : c.pc = .started) (h : checkQuote cfg c.body = .error e) :
      QuoteMove cfg db now redis c .begin redis (.answered now (.error e))
  | begun (hpc : c.pc = .started) (h : checkQuote cfg c.body = .ok ()) :
      QuoteMove cfg db now redis c .begin redis (.looking now)
  | hit {asked : Time} {e : CacheEntry} (hpc : c.pc = .looking asked)
      (he : redis (routeCacheKey c.body.sourceProgram c.body.destinationProgram) = some e)
      (hlive : now < e.expiresAt) :
      QuoteMove cfg db now redis c (.lookup true) redis
        (.answered asked (priceQuote cfg c.body asked e.route))
  | miss {reachable : Bool} {asked : Time} (hpc : c.pc = .looking asked) :
      QuoteMove cfg db now redis c (.lookup reachable) redis (.loading asked)
  | unknown {asked : Time} {e : DomainError} (hpc : c.pc = .loading asked)
      (h : db.getRoute c.body.sourceProgram c.body.destinationProgram asked = .error e) :
      QuoteMove cfg db now redis c .load redis (.answered asked (.error e))
  | loaded {asked : Time} {route : RouteConfig} (hpc : c.pc = .loading asked)
      (h : db.getRoute c.body.sourceProgram c.body.destinationProgram asked = .ok route) :
      QuoteMove cfg db now redis c .load redis (.storing asked route)
  | stored {asked : Time} {route : RouteConfig} (hpc : c.pc = .storing asked route) :
      QuoteMove cfg db now redis c (.store true) (redis.store cfg now route asked)
        (.answered asked (priceQuote cfg c.body asked route))
  | unstored {asked : Time} {route : RouteConfig} (hpc : c.pc = .storing asked route) :
      QuoteMove cfg db now redis c (.store false) redis
        (.answered asked (priceQuote cfg c.body asked route))

theorem Redis.get_some {redis : Redis} {now : Time} {sourceCode destinationCode : String}
    {route : RouteConfig} (h : redis.get now sourceCode destinationCode = some route) :
    ∃ e, redis (routeCacheKey sourceCode destinationCode) = some e ∧ now < e.expiresAt ∧
      e.route = route := by
  obtain ⟨e, he, hroute⟩ := Option.map_eq_some_iff.mp h
  obtain ⟨hsome, hlive⟩ := Option.filter_eq_some_iff.mp he
  exact ⟨e, hsome, of_decide_eq_true hlive, hroute⟩

theorem quoteStep_move {cfg : QuoteConfig} {db : Database} {now : Time} {redis redis' : Redis}
    {c : QuoteCall} {a : QuoteAction} {pc : QuotePc}
    (h : quoteStep cfg db now redis c a = some (redis', pc)) :
    QuoteMove cfg db now redis c a redis' pc := by
  cases a with
  | begin =>
      cases hpc : c.pc with
      | started =>
          simp only [quoteStep, hpc] at h
          split at h
          · cases h
            exact .refused hpc (by assumption)
          · cases h
            exact .begun hpc (by assumption)
      | _ => simp [quoteStep, hpc] at h
  | lookup reachable =>
      cases hpc : c.pc with
      | looking asked =>
          simp only [quoteStep, hpc] at h
          split at h
          · rename_i route hget
            cases h
            cases reachable with
            | false => cases hget
            | true =>
                obtain ⟨e, he, hlive, rfl⟩ := Redis.get_some hget
                exact .hit hpc he hlive
          · cases h
            exact .miss hpc
      | _ => simp [quoteStep, hpc] at h
  | load =>
      cases hpc : c.pc with
      | loading asked =>
          simp only [quoteStep, hpc] at h
          split at h
          · cases h
            exact .unknown hpc (by assumption)
          · cases h
            exact .loaded hpc (by assumption)
      | _ => simp [quoteStep, hpc] at h
  | store reachable =>
      cases hpc : c.pc with
      | storing asked route =>
          simp only [quoteStep, hpc] at h
          cases h
          cases reachable with
          | false => exact .unstored hpc
          | true => exact .stored hpc
      | _ => simp [quoteStep, hpc] at h

/-! ## The keys -/

theorem colon_not_mem {code : String} (h : programCodeFormat code = true) : ':' ∉ code.toList := by
  intro hmem
  simp only [programCodeFormat] at h
  split at h
  · rename_i c cs heq
    rw [heq] at hmem
    simp only [Bool.and_eq_true, List.all_eq_true] at h
    obtain ⟨⟨⟨hc, hcs⟩, -⟩, -⟩ := h
    rcases List.mem_cons.mp hmem with rfl | hmem
    · exact absurd hc (by decide)
    · exact absurd (hcs _ hmem) (by decide)
  · cases h

theorem routeCacheKey_toList (a b : String) :
    (routeCacheKey a b).toList =
      "rate-engine:v1:route:".toList ++ (a.toList ++ ':' :: b.toList) := by
  have hkey : routeCacheKey a b = "rate-engine:v1:route:" ++ a ++ ":" ++ b := rfl
  rw [hkey, String.toList_append, String.toList_append, String.toList_append, List.append_assoc,
    List.append_assoc]
  rfl

/-- No code holds a colon, so a key belongs to one route. -/
theorem routeCacheKey_injective {a b a' b' : String} (ha : ':' ∉ a.toList) (hb : ':' ∉ b.toList)
    (h : routeCacheKey a b = routeCacheKey a' b') : a = a' ∧ b = b' := by
  have hlist := congrArg String.toList h
  rw [routeCacheKey_toList, routeCacheKey_toList] at hlist
  obtain ⟨hsource, -, hdest⟩ :=
    (List.append_cons_inj_of_notMem ha hb).mp (List.append_cancel_left hlist)
  exact ⟨String.toList_inj.mp hsource, String.toList_inj.mp hdest⟩

/-! ## The condition -/

/-- A store comes in time when the whole time to live, or what is left of it after
the cut to milliseconds, ends by `valid_until`. -/
def InTime (cfg : QuoteConfig) (now asked : Time) (route : RouteConfig) : Prop :=
  ∀ v ∈ route.validUntil, 0 < totalMilliseconds (v - asked) →
    now + cfg.rateCacheTtlSeconds ≤ v ∨
      now - asked ≤ (v - asked) - totalMilliseconds (v - asked) / 1000

instance (cfg : QuoteConfig) (now asked : Time) (route : RouteConfig) :
    Decidable (InTime cfg now asked route) :=
  inferInstanceAs (Decidable (∀ v ∈ _, _ → _))

/-- The entry was not loaded after the end of a bonus that a quote for `asked`
still has. -/
def Unmissed (db : Database) (now asked : Time) (e : CacheEntry) : Prop :=
  now < e.expiresAt → asked < e.pricedAt →
    ∀ b ∈ db.bonusesOn e.route.source.id e.route.destination.id,
      asked < b.endsAt → e.pricedAt < b.endsAt

instance (db : Database) (now asked : Time) (e : CacheEntry) :
    Decidable (Unmissed db now asked e) :=
  inferInstanceAs (Decidable (_ → _ → ∀ b ∈ _, _ → _))

/-- Every store is in time, and every lookup finds a route not loaded too late. -/
def timely (cfg : QuoteConfig) (db : Database) (s : CacheSystem) : CacheAction → Bool
  | .quote i a => (s.calls[i]?).all fun c =>
      match a, c.pc with
      | .store true, .storing asked route => decide (InTime cfg s.now asked route)
      | .lookup true, .looking asked =>
          (s.redis (routeCacheKey c.body.sourceProgram c.body.destinationProgram)).all fun e =>
            decide (Unmissed db s.now asked e)
      | _, _ => true
  | _ => true

section

variable {cfg : QuoteConfig} {db : Database} {s : CacheSystem} {i : Nat} {c : QuoteCall}
  {asked : Time}

theorem timely_store {route : RouteConfig} (h : timely cfg db s (.quote i (.store true)) = true)
    (hc : s.calls[i]? = some c) (hpc : c.pc = .storing asked route) :
    InTime cfg s.now asked route := by
  simp only [timely, hc, hpc, Option.all_some, decide_eq_true_eq] at h
  exact h

theorem timely_lookup {e : CacheEntry} (h : timely cfg db s (.quote i (.lookup true)) = true)
    (hc : s.calls[i]? = some c) (hpc : c.pc = .looking asked)
    (he : s.redis (routeCacheKey c.body.sourceProgram c.body.destinationProgram) = some e) :
    Unmissed db s.now asked e := by
  simp only [timely, hc, hpc, he, Option.all_some, decide_eq_true_eq] at h
  exact h

end

/-! ## The invariant -/

/-- The entry holds what `get_route` finds for its instant, and is dropped by its
`valid_until`. -/
structure EntrySound (db : Database) (start now : Time) (key : String) (e : CacheEntry) :
    Prop where
  loaded : ∃ sourceCode destinationCode, key = routeCacheKey sourceCode destinationCode ∧
    db.getRoute sourceCode destinationCode e.pricedAt = .ok e.route
  started : start ≤ e.pricedAt
  past : e.pricedAt ≤ now
  dropped : ∀ v, e.route.validUntil = some v → e.expiresAt ≤ v

/-- Where a quote stands. -/
def QuotePcSound (cfg : QuoteConfig) (db : Database) (start now : Time) (body : QuoteRequest) :
    QuotePc → Prop
  | .started => True
  | .looking asked => checkQuote cfg body = .ok () ∧ start ≤ asked ∧ asked ≤ now
  | .loading asked => checkQuote cfg body = .ok () ∧ start ≤ asked ∧ asked ≤ now
  | .storing asked route => checkQuote cfg body = .ok () ∧ start ≤ asked ∧ asked ≤ now ∧
      db.getRoute body.sourceProgram body.destinationProgram asked = .ok route
  | .answered asked result => result = quote cfg db.getRoute body asked

structure CacheSound (cfg : QuoteConfig) (db : Database) (start : Time) (s : CacheSystem) :
    Prop where
  clock : start ≤ s.now
  entries : ∀ key e, s.redis key = some e → EntrySound db start s.now key e
  calls : ∀ c ∈ s.calls, c.body.valid = true ∧ QuotePcSound cfg db start s.now c.body c.pc

section

variable {cfg : QuoteConfig} {db : Database} {start now : Time}

theorem quote_of_route {body : QuoteRequest} {asked : Time} {route : RouteConfig}
    (hcheck : checkQuote cfg body = .ok ())
    (hroute : db.getRoute body.sourceProgram body.destinationProgram asked = .ok route) :
    quote cfg db.getRoute body asked = priceQuote cfg body asked route := by
  simp only [quote, hcheck, hroute]
  rfl

theorem quote_of_error {body : QuoteRequest} {asked : Time} {e : DomainError}
    (hcheck : checkQuote cfg body = .ok ())
    (hroute : db.getRoute body.sourceProgram body.destinationProgram asked = .error e) :
    quote cfg db.getRoute body asked = .error e := by
  simp only [quote, hcheck, hroute]
  rfl

theorem EntrySound.later {key : String} {e : CacheEntry} (h : EntrySound db start now key e)
    {now' : Time} (hle : now ≤ now') : EntrySound db start now' key e :=
  { h with past := h.past.trans hle }

theorem QuotePcSound.later {body : QuoteRequest} {pc : QuotePc}
    (h : QuotePcSound cfg db start now body pc)
    {now' : Time} (hle : now ≤ now') : QuotePcSound cfg db start now' body pc := by
  cases pc with
  | started => trivial
  | looking asked => exact ⟨h.1, h.2.1, h.2.2.trans hle⟩
  | loading asked => exact ⟨h.1, h.2.1, h.2.2.trans hle⟩
  | storing asked route => exact ⟨h.1, h.2.1, h.2.2.1.trans hle, h.2.2.2⟩
  | answered asked result => exact h

/-- What the rows are like while nothing changes them: the versions tile the time
and have started, and bonuses do not overlap. -/
structure RowsSound (db : Database) (start : Time) : Prop where
  routes : ∀ sourceId destinationId, RouteVersioned (db.rateVersions sourceId destinationId)
  started : RatesStarted db start
  apart : BonusesApart db

theorem RowsSound.startedBy (h : RowsSound db start) {asked : Time} (hle : start ≤ asked)
    (sourceId destinationId : Nat) :
    ∀ r ∈ db.rateVersions sourceId destinationId, r.effectiveFrom ≤ asked := by
  intro r hr
  exact (h.started r (mem_rateVersions.mp hr).1).trans hle

/-- An entry loaded for a later instant prices the same, when no bonus ended in
between. -/
theorem priceQuote_backwards (cfg : QuoteConfig) (h : RowsSound db start) {body : QuoteRequest}
    {asked priced : Time} {route : RouteConfig} (hstart : start ≤ asked) (hlt : asked < priced)
    (hroute : db.getRoute body.sourceProgram body.destinationProgram priced = .ok route)
    (hends : ∀ b ∈ db.bonusesOn route.source.id route.destination.id,
      asked < b.endsAt → priced < b.endsAt) :
    ∃ route', db.getRoute body.sourceProgram body.destinationProgram asked = .ok route' ∧
      priceQuote cfg body asked route = priceQuote cfg body asked route' := by
  obtain ⟨source, destination, hs, hd, rfl⟩ := getRoute_iff.mp hroute
  refine ⟨db.routeAt source destination asked, getRoute_iff.mpr ⟨_, _, hs, hd, rfl⟩, ?_⟩
  have hversions := h.routes source.id destination.id
  have hrate : db.rateAt source.id destination.id priced =
      db.rateAt source.id destination.id asked := by
    rw [rateAt_last hversions (h.startedBy hstart _ _),
      rateAt_last hversions (h.startedBy (hstart.trans hlt.le) _ _)]
  have husable : ensureRouteUsable (db.routeAt source destination priced) =
      ensureRouteUsable (db.routeAt source destination asked) := by
    simp only [ensureRouteUsable, Database.routeAt, hrate]
  have hconversion : ∀ rate, calculateConversion rate body.sourcePoints
      (db.routeAt source destination priced).bonus asked =
        calculateConversion rate body.sourcePoints
          (db.routeAt source destination asked).bonus asked := fun _ =>
    calculateConversion_congr (bonus_backwards h.apart hlt.le hends)
  simp only [priceQuote, husable, hconversion]

/-- A cached route answers as PostgreSQL does. -/
theorem EntrySound.agrees (hrows : RowsSound db start) {body : QuoteRequest} {e : CacheEntry}
    (h : EntrySound db start now
      (routeCacheKey body.sourceProgram body.destinationProgram) e)
    (hvalid : body.valid = true) (hcheck : checkQuote cfg body = .ok ()) {asked : Time}
    (hstart : start ≤ asked) (hpast : asked ≤ now) (hlive : now < e.expiresAt)
    (hunmissed : Unmissed db now asked e) :
    priceQuote cfg body asked e.route = quote cfg db.getRoute body asked := by
  obtain ⟨sourceCode, destinationCode, hkey, hroute⟩ := h.loaded
  simp only [QuoteRequest.valid, Bool.and_eq_true] at hvalid
  obtain ⟨rfl, rfl⟩ := routeCacheKey_injective (colon_not_mem hvalid.1.1.1)
    (colon_not_mem hvalid.1.1.2) hkey
  rcases le_or_gt e.pricedAt asked with hle | hlt
  · have hsame : db.getRoute body.sourceProgram body.destinationProgram asked = .ok e.route := by
      refine getRoute_stable hroute (hrows.routes _ _) ?_ hle ?_
      · intro first hfirst
        exact hrows.startedBy h.started _ _ first (List.mem_of_head? hfirst)
      · intro v hv
        exact hpast.trans_lt (hlive.trans_le (h.dropped v hv))
    exact (quote_of_route hcheck hsame).symm
  · obtain ⟨route', hroute', hprice⟩ := priceQuote_backwards cfg hrows hstart hlt hroute
      (hunmissed hlive hlt)
    rw [hprice, quote_of_route hcheck hroute']

/-! ## One step keeps it -/

/-- An entry stored in time is dropped by the `valid_until` of its route. -/
theorem stored_dropped {asked : Time} {route : RouteConfig} {v : Time}
    (hv : route.validUntil = some v) (hstored : 0 < ttlMs cfg route asked)
    (hintime : InTime cfg now asked route) :
    now + (ttlMs cfg route asked : ℚ) / 1000 ≤ v := by
  have hcut : ttlMs cfg route asked =
      min ((cfg.rateCacheTtlSeconds : Int) * 1000) (totalMilliseconds (v - asked)) := by
    simp only [ttlMs, hv]
  rw [hcut] at hstored ⊢
  have hwhole : ((min (cfg.rateCacheTtlSeconds * 1000 : Int)
      (totalMilliseconds (v - asked)) : Int) : ℚ) ≤ cfg.rateCacheTtlSeconds * 1000 := by
    exact_mod_cast min_le_left _ _
  have hleft : ((min (cfg.rateCacheTtlSeconds * 1000 : Int)
      (totalMilliseconds (v - asked)) : Int) : ℚ) ≤ totalMilliseconds (v - asked) := by
    exact_mod_cast min_le_right _ _
  rcases hintime v hv (lt_min_iff.mp hstored).2 with h | h
  · linarith
  · linarith

theorem EntrySound.stored {body : QuoteRequest} {asked : Time} {route : RouteConfig}
    (hstart : start ≤ asked) (hpast : asked ≤ now)
    (hroute : db.getRoute body.sourceProgram body.destinationProgram asked = .ok route)
    (hstored : 0 < ttlMs cfg route asked) (hintime : InTime cfg now asked route) :
    EntrySound db start now (routeCacheKey route.source.code route.destination.code)
      ⟨route, asked, now + ttlMs cfg route asked / 1000⟩ where
  loaded := by
    obtain ⟨⟨row, -, hcode, hsource⟩, row', -, hcode', hdestination⟩ := getRoute_ok hroute
    refine ⟨body.sourceProgram, body.destinationProgram, ?_, hroute⟩
    rw [hsource, hdestination, ← hcode, ← hcode']
    rfl
  started := hstart
  past := hpast
  dropped := fun v hv => stored_dropped hv hstored hintime

variable {s s' : CacheSystem} {a : CacheAction}

theorem QuoteMove.entries (h : CacheSound cfg db start s) {i : Nat} {c : QuoteCall}
    {act : QuoteAction} {redis : Redis} {pc : QuotePc} (hc : s.calls[i]? = some c)
    (hm : QuoteMove cfg db s.now s.redis c act redis pc)
    (htimely : timely cfg db s (.quote i act) = true) :
    ∀ key e, redis key = some e → EntrySound db start s.now key e := by
  intro key e he
  cases hm with
  | @stored asked route hpc =>
      have hpcSound := (h.calls c (List.mem_of_getElem? hc)).2
      rw [hpc] at hpcSound
      obtain ⟨-, hstart, hpast, hroute⟩ := hpcSound
      simp only [Redis.store] at he
      split at he
      · exact h.entries key e he
      · rename_i hpositive
        by_cases hkey : key = routeCacheKey route.source.code route.destination.code
        · subst hkey
          rw [Function.update_self] at he
          cases he
          exact EntrySound.stored hstart hpast hroute (not_le.mp hpositive)
            (timely_store htimely hc hpc)
        · rw [Function.update_of_ne hkey] at he
          exact h.entries key e he
  | _ => exact h.entries key e he

theorem QuoteMove.pcSound (hrows : RowsSound db start) (h : CacheSound cfg db start s) {i : Nat}
    {c : QuoteCall} {act : QuoteAction} {redis : Redis} {pc : QuotePc}
    (hc : s.calls[i]? = some c) (hm : QuoteMove cfg db s.now s.redis c act redis pc)
    (htimely : timely cfg db s (.quote i act) = true) :
    QuotePcSound cfg db start s.now c.body pc := by
  obtain ⟨hvalid, hpcSound⟩ := h.calls c (List.mem_of_getElem? hc)
  cases hm with
  | refused hpc hcheck =>
      show _ = quote cfg db.getRoute c.body s.now
      simp only [quote, hcheck]
      rfl
  | begun hpc hcheck => exact ⟨hcheck, h.clock, le_rfl⟩
  | @hit asked e hpc he hlive =>
      rw [hpc] at hpcSound
      obtain ⟨hcheck, hstart, hpast⟩ := hpcSound
      exact (h.entries _ e he).agrees hrows hvalid hcheck hstart hpast hlive
        (timely_lookup htimely hc hpc he)
  | miss hpc =>
      rw [hpc] at hpcSound
      exact hpcSound
  | unknown hpc hroute =>
      rw [hpc] at hpcSound
      exact (quote_of_error hpcSound.1 hroute).symm
  | loaded hpc hroute =>
      rw [hpc] at hpcSound
      exact ⟨hpcSound.1, hpcSound.2.1, hpcSound.2.2, hroute⟩
  | stored hpc =>
      rw [hpc] at hpcSound
      exact (quote_of_route hpcSound.1 hpcSound.2.2.2).symm
  | unstored hpc =>
      rw [hpc] at hpcSound
      exact (quote_of_route hpcSound.1 hpcSound.2.2.2).symm

theorem CacheSound.step (hrows : RowsSound db start) (h : CacheSound cfg db start s)
    (htimely : timely cfg db s a = true) (hstep : cacheStep cfg db s a = some s') :
    CacheSound cfg db start s' := by
  cases a with
  | pass duration =>
      simp only [cacheStep] at hstep
      split at hstep
      · rename_i hduration
        cases hstep
        have hle : s.now ≤ s.now + duration := le_add_of_nonneg_right hduration
        exact ⟨h.clock.trans hle, fun key e he => (h.entries key e he).later hle,
          fun c hc => ⟨(h.calls c hc).1, (h.calls c hc).2.later hle⟩⟩
      · cases hstep
  | arrive body =>
      simp only [cacheStep] at hstep
      split at hstep
      · rename_i hvalid
        cases hstep
        refine ⟨h.clock, h.entries, ?_⟩
        intro c hc
        rcases List.mem_append.mp hc with hc | hc
        · exact h.calls c hc
        · rw [List.mem_singleton.mp hc]
          exact ⟨hvalid, trivial⟩
      · cases hstep
  | quote i act =>
      simp only [cacheStep] at hstep
      cases hc : s.calls[i]? with
      | none => rw [hc] at hstep; cases hstep
      | some c =>
          rw [hc, Option.map_eq_some_iff] at hstep
          obtain ⟨⟨redis, pc⟩, hquote, rfl⟩ := hstep
          have hmove := quoteStep_move hquote
          have hpc := hmove.pcSound hrows h hc htimely
          refine ⟨h.clock, hmove.entries h hc htimely, ?_⟩
          intro c' hc'
          rcases List.mem_or_eq_of_mem_set hc' with hc' | heq
          · exact h.calls c' hc'
          · rw [heq]
            exact ⟨(h.calls c (List.mem_of_getElem? hc)).1, hpc⟩
  | lose key =>
      simp only [cacheStep, Option.some.injEq] at hstep
      subst hstep
      refine ⟨h.clock, ?_, h.calls⟩
      intro key' e he
      by_cases hkey : key' = key
      · subst hkey
        simp only [Function.update_self] at he
        cases he
      · simp only [Function.update_of_ne hkey] at he
        exact h.entries key' e he

/-! ## Along a run -/

theorem CacheSystem.Initial.sound (h : s.Initial) : CacheSound cfg db s.now s where
  clock := le_rfl
  entries := by
    intro key e he
    rw [h.redis] at he
    cases he
  calls := by simp [h.calls]

/-- In a run whose stores and lookups are all timely, every quote answers what it
would answer from PostgreSQL at the instant it read, and no entry that a lookup can
still find has reached its `valid_until`. -/
theorem cached_quotes_agree {s₀ : CacheSystem} {as : List CacheAction} (h₀ : s₀.Initial)
    (hrows : RowsSound db s₀.now)
    (htimely : Runs.AllSteps (cacheStep cfg db) (fun s a => timely cfg db s a = true) s₀ as)
    (h : Runs.run (cacheStep cfg db) s₀ as = some s) :
    (∀ c ∈ s.calls, ∀ asked result, c.pc = .answered asked result →
      result = quote cfg db.getRoute c.body asked) ∧
    ∀ sourceCode destinationCode route v,
      s.redis.get s.now sourceCode destinationCode = some route → route.validUntil = some v →
        s.now < v := by
  have hsound : CacheSound cfg db s₀.now s :=
    Runs.run_invariant_of (fun x a x' hI hc hstep => hI.step hrows hc hstep) h₀.sound htimely h
  constructor
  · intro c hc asked result hpc
    have hpcSound := (hsound.calls c hc).2
    rw [hpc] at hpcSound
    exact hpcSound
  · intro sourceCode destinationCode route v hget hv
    obtain ⟨e, he, hlive, rfl⟩ := Redis.get_some hget
    exact hlive.trans_le ((hsound.entries _ e he).dropped v hv)

end

/-! ## A store at once is in time -/

/-- Up to some seventy years, the cut of a whole number of microseconds to
milliseconds never rounds up. -/
theorem totalMilliseconds_le {n : Nat} (hn : n < 2 ^ 51) :
    (totalMilliseconds (n / 1000000) : ℚ) / 1000 ≤ n / 1000000 := by
  have hn' : (n : ℚ) < 2 ^ 51 := by exact_mod_cast hn
  have hn₀ : (0 : ℚ) ≤ n := Nat.cast_nonneg n
  have hseconds := abs_le.mp (Double.abs_nearest_sub_le ((n : ℚ) / 1000000))
  rw [abs_of_nonneg (by positivity)] at hseconds
  rw [totalMilliseconds]
  generalize Double.nearest ((n : ℚ) / 1000000) = seconds at hseconds ⊢
  norm_num at hseconds
  have hnonneg : 0 ≤ seconds := by linarith [hseconds.1]
  have hmillis := abs_le.mp (Double.abs_nearest_sub_le (seconds * 1000))
  rw [abs_of_nonneg (by positivity)] at hmillis
  generalize Double.nearest (seconds * 1000) = millis at hmillis ⊢
  norm_num at hmillis
  have hcut := Double.truncate_le (show 0 ≤ millis by linarith [hmillis.1])
  -- both roundings together move the product by less than a microsecond
  have hbelow : (Double.truncate millis : ℚ) * 1000 < n + 1 := by
    linarith [hmillis.2, hseconds.2]
  have hbelow' : Double.truncate millis * 1000 < n + 1 := by exact_mod_cast hbelow
  have hle : (Double.truncate millis : ℚ) * 1000 ≤ n := by
    exact_mod_cast Int.lt_add_one_iff.mp hbelow'
  linarith

/-- A store at the instant the route was loaded for comes in time. -/
theorem inTime_at_once (cfg : QuoteConfig) {asked : Time} {route : RouteConfig}
    (hmicros : ∀ v ∈ route.validUntil, ∃ n : Nat, n < 2 ^ 51 ∧ v - asked = n / 1000000) :
    InTime cfg asked asked route := by
  intro v hv _
  obtain ⟨n, hn, hdelta⟩ := hmicros v hv
  right
  rw [hdelta]
  linarith [totalMilliseconds_le hn]

/-! ## A bonus that is to start -/

def sampleQuotes : QuoteConfig := ⟨60, some 1000000, 60⟩

/-- The seeded database with a bonus scheduled for instant 5. -/
@[irreducible] def promotedDb : Database :=
  ((createBonus ⟨"NOVA_REWARDS", "STAYWELL_POINTS", 1000, 5, 100⟩ 0).commit seedDb).2

def emptyCache : CacheSystem := ⟨0, fun _ => none, []⟩

theorem emptyCache_initial : emptyCache.Initial := ⟨rfl, rfl⟩

def quoteBody : QuoteRequest := ⟨"NOVA_REWARDS", "STAYWELL_POINTS", 1000⟩

/-- A quote at instant 0 that stores its route `delay` later, and one at `later`
after that that finds it. -/
def cachedRun (delay later : Time) : List CacheAction :=
  [.arrive quoteBody, .quote 0 .begin, .quote 0 (.lookup true), .quote 0 .load, .pass delay,
    .quote 0 (.store true), .pass later, .arrive quoteBody, .quote 1 .begin,
    .quote 1 (.lookup true)]

theorem promotedDb_rows : RowsSound promotedDb 0 where
  routes := (ratesSeeded_of_rows (by decide +kernel) (by decide +kernel)
    (by decide +kernel)).sound.routes
  started := by unfold RatesStarted; decide +kernel
  apart := by unfold BonusesApart; decide +kernel

theorem cached_quotes_agree_promptStore :
    ∃ s, Runs.run (cacheStep sampleQuotes promotedDb) emptyCache (cachedRun 0 4) = some s ∧
      (∀ c ∈ s.calls, ∀ asked result, c.pc = .answered asked result →
        result = quote sampleQuotes promotedDb.getRoute c.body asked) ∧
      ∃ route, s.redis.get s.now "NOVA_REWARDS" "STAYWELL_POINTS" = some route ∧
        route.validUntil = some 5 ∧ s.now < 5 := by
  have hany : (Runs.run (cacheStep sampleQuotes promotedDb) emptyCache (cachedRun 0 4)).any
      (fun s => (s.redis.get s.now "NOVA_REWARDS" "STAYWELL_POINTS").any fun route =>
        decide (route.validUntil = some 5)) = true := by
    decide +kernel
  obtain ⟨s, hs, hroute⟩ := (Option.any_eq_true _ _).mp hany
  obtain ⟨route, hget, hvalid⟩ := (Option.any_eq_true _ _).mp hroute
  obtain ⟨hquotes, hserved⟩ := cached_quotes_agree emptyCache_initial promotedDb_rows
    (by decide +kernel) hs
  exact ⟨s, hs, hquotes, route, hget, of_decide_eq_true hvalid,
    hserved _ _ route 5 hget (of_decide_eq_true hvalid)⟩

/-- Stored one second after it was loaded, the route without the bonus is served
half a second after the bonus started. -/
theorem late_store_misprices :
    ∃ s c asked result, Runs.run (cacheStep sampleQuotes promotedDb) emptyCache
        (cachedRun 1 (9 / 2)) = some s ∧
      c ∈ s.calls ∧ c.pc = .answered asked result ∧
      result ≠ quote sampleQuotes promotedDb.getRoute c.body asked ∧
      ∃ route v, s.redis.get s.now "NOVA_REWARDS" "STAYWELL_POINTS" = some route ∧
        route.validUntil = some v ∧ v ≤ s.now := by
  have hany : (Runs.run (cacheStep sampleQuotes promotedDb) emptyCache
      (cachedRun 1 (9 / 2))).any (fun s =>
        (s.calls.any fun c =>
          match c.pc with
          | .answered asked result => decide (result.toOption ≠
              (quote sampleQuotes promotedDb.getRoute c.body asked).toOption)
          | _ => false) &&
        (s.redis.get s.now "NOVA_REWARDS" "STAYWELL_POINTS").any fun route =>
          route.validUntil.any fun v => decide (v ≤ s.now)) = true := by
    decide +kernel
  obtain ⟨s, hs, hboth⟩ := (Option.any_eq_true _ _).mp hany
  obtain ⟨hcalls, hserved⟩ := Bool.and_eq_true_iff.mp hboth
  obtain ⟨c, hc, hpc⟩ := List.any_eq_true.mp hcalls
  obtain ⟨route, hget, hroute⟩ := (Option.any_eq_true _ _).mp hserved
  obtain ⟨v, hv, hle⟩ := (Option.any_eq_true _ _).mp hroute
  split at hpc
  · rename_i asked result heq
    refine ⟨s, c, asked, result, hs, hc, heq, ?_, route, v, hget, hv, of_decide_eq_true hle⟩
    intro hsame
    exact of_decide_eq_true hpc (congrArg Except.toOption hsame)
  · cases hpc

end LoyaltyTransfer
