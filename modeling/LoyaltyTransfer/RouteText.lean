/-
# `LoyaltyTransfer.RouteText` — a route as the cache keeps it

`serialize_route` and `deserialize_route` of `app/cache/rate_cache.py`, and what
`RouteCache` stores and reads with them.  The way out is generic: `asdict`, then
`json.dumps` with a hook for the one kind of leaf that JSON has no text for.  The
way back rebuilds each record by hand:

    source, destination   ProgramRef(**...)
    rate                  RateRule(**{**rate, "effective_to": moment(...)})
    bonus                 BonusRule(...), member by member
    valid_until           moment(...)

`ProgramRef` and `RateRule` refuse a member they do not know, `BonusRule` leaves it.

**Proved here.**  Every route is read back as it was written, with or without a
rate, a bonus and each of the optional members (`route_round_trip`).  So the cache
of texts answers as the cache of routes does, whose quotes `RouteCache` is about
(`TextRedis.Mirrors.get`).
-/
import LoyaltyTransfer.Cursors
import LoyaltyTransfer.RouteCache

/-! ## Reading a member -/

namespace Json.Value

/-- `bool(value)`. -/
def truthy : Value → Bool
  | .null => false
  | .bool b => b
  | .int n => n != 0
  | .float x => x.text != "0.0" && x.text != "-0.0"
  | .str s => s != ""
  | .arr xs => !xs.isEmpty
  | .obj fields => !fields.isEmpty

/-- `Record(**value)` takes a dictionary with these members and no others. -/
def hasExactly (names : List String) : Value → Bool
  | .obj fields =>
      fields.all (fun p => names.contains p.1) && names.all fun k => fields.any fun p => p.1 == k
  | _ => false

def int? : Value → Option Int
  | .int n => some n
  | _ => none

def nat? : Value → Option Nat
  | .int (.ofNat n) => some n
  | _ => none

def str? : Value → Option String
  | .str s => some s
  | _ => none

def bool? : Value → Option Bool
  | .bool b => some b
  | _ => none

/-- `value`, or `None`. -/
def orNone {α : Type} (read : Value → Option α) : Value → Option (Option α)
  | .null => some none
  | v => (read v).map some

end Json.Value

namespace LoyaltyTransfer

open Json (Value)

/-! ## `asdict` -/

/-- What `asdict` makes of a dataclass: dictionaries and the leaves as they are. -/
inductive Plain (δ : Type) where
  | null
  | bool (b : Bool)
  | int (n : Int)
  | str (s : String)
  | instant (d : δ)
  | dict (fields : List (String × Plain δ))

def Plain.optional {δ α : Type} (leaf : α → Plain δ) : Option α → Plain δ
  | some a => leaf a
  | none => .null

def ProgramRef.asdict (p : ProgramRef) : Plain Time :=
  .dict [("id", .int p.id), ("code", .str p.code), ("active", .bool p.active)]

def RateRule.asdict (r : RateRule) : Plain Time :=
  .dict [
    ("rate_id", .int r.rateId),
    ("version", .int r.version),
    ("numerator", .int r.numerator),
    ("denominator", .int r.denominator),
    ("min_source_points", .int r.minSourcePoints),
    ("source_increment", .int r.sourceIncrement),
    ("max_source_points", .optional .int r.maxSourcePoints),
    ("effective_to", .optional .instant r.effectiveTo)]

def BonusRule.asdict (b : BonusRule) : Plain Time :=
  .dict [
    ("bonus_id", .int b.bonusId),
    ("bonus_bps", .int b.bonusBps),
    ("starts_at", .instant b.startsAt),
    ("ends_at", .instant b.endsAt)]

def RouteConfig.asdict (route : RouteConfig) : Plain Time :=
  .dict [
    ("source", route.source.asdict),
    ("destination", route.destination.asdict),
    ("rate", .optional RateRule.asdict route.rate),
    ("bonus", .optional BonusRule.asdict route.bonus),
    ("valid_until", .optional .instant route.validUntil)]

/-- The instants of a route. -/
def RouteConfig.instants (route : RouteConfig) : List Time :=
  (route.rate.bind RateRule.effectiveTo).toList ++
    (route.bonus.toList.flatMap fun b => [b.startsAt, b.endsAt]) ++ route.validUntil.toList

/-! ## The text and its reading -/

section

variable (lib : TextLibrary Time)

mutual
/-- What `json.dumps` takes a tree for, with `encode` as its `default`. -/
def Plain.json : Plain Time → Value
  | .null => .null
  | .bool b => .bool b
  | .int n => .int n
  | .str s => .str s
  | .instant d => .str (lib.isoformat d)
  | .dict fields => .obj (Plain.jsonFields fields)
def Plain.jsonFields : List (String × Plain Time) → List (String × Value)
  | [] => []
  | (k, v) :: fs => (k, Plain.json v) :: Plain.jsonFields fs
end

def serializeRoute (route : RouteConfig) : String := Json.dumpsAscii (route.asdict.json lib)

/-- `datetime.fromisoformat(value)`. -/
def instant? (v : Value) : Option Time := v.str?.bind lib.fromisoformat

/-- `moment(value)`. -/
def moment : Value → Option (Option Time) := Value.orNone (instant? lib)

/-- `ProgramRef(**value)`.  The records have types here: a member of another type,
which Python would store as it is, is refused. -/
def ProgramRef.ofJson (v : Value) : Option ProgramRef := do
  guard (v.hasExactly ["id", "code", "active"])
  pure {
    id := ← (v.get "id").bind Value.nat?
    code := ← (v.get "code").bind Value.str?
    active := ← (v.get "active").bind Value.bool? }

/-- `RateRule(**{**rate, "effective_to": moment(rate["effective_to"])})`. -/
def RateRule.ofJson (rate : Value) : Option RateRule := do
  guard (rate.hasExactly ["rate_id", "version", "numerator", "denominator", "min_source_points",
    "source_increment", "max_source_points", "effective_to"])
  pure {
    rateId := ← (rate.get "rate_id").bind Value.nat?
    version := ← (rate.get "version").bind Value.int?
    numerator := ← (rate.get "numerator").bind Value.int?
    denominator := ← (rate.get "denominator").bind Value.int?
    minSourcePoints := ← (rate.get "min_source_points").bind Value.int?
    sourceIncrement := ← (rate.get "source_increment").bind Value.int?
    maxSourcePoints := ← (rate.get "max_source_points").bind (Value.orNone Value.int?)
    effectiveTo := ← (rate.get "effective_to").bind (moment lib) }

def BonusRule.ofJson (bonus : Value) : Option BonusRule := do
  pure {
    bonusId := ← (bonus.get "bonus_id").bind Value.nat?
    bonusBps := ← (bonus.get "bonus_bps").bind Value.int?
    startsAt := ← (bonus.get "starts_at").bind (instant? lib)
    endsAt := ← (bonus.get "ends_at").bind (instant? lib) }

/-- `Record(...) if value else None`. -/
def ifTruthy {α : Type} (read : Value → Option α) (v : Value) : Option (Option α) :=
  if v.truthy then (read v).map some else some none

def RouteConfig.ofJson (data : Value) : Option RouteConfig := do
  let rate ← data.get "rate"
  let bonus ← data.get "bonus"
  pure {
    source := ← (data.get "source").bind ProgramRef.ofJson
    destination := ← (data.get "destination").bind ProgramRef.ofJson
    rate := ← ifTruthy (RateRule.ofJson lib) rate
    bonus := ← ifTruthy (BonusRule.ofJson lib) bonus
    validUntil := ← (data.get "valid_until").bind (moment lib) }

/-- `deserialize_route`; `none` where it raises, a `ValueError`, a `KeyError` or a
`TypeError`, which `RouteCache.get` takes alike. -/
def deserializeRoute (payload : String) : Option RouteConfig :=
  (lib.loads (utf8 payload)).bind (RouteConfig.ofJson lib)

end

/-! ## Record by record -/

section

variable {lib : TextLibrary Time}

@[simp] theorem Plain.json_null : Plain.json lib .null = .null := rfl

@[simp] theorem Plain.json_bool (b : Bool) : Plain.json lib (.bool b) = .bool b := rfl

@[simp] theorem Plain.json_int (n : Int) : Plain.json lib (.int n) = .int n := rfl

@[simp] theorem Plain.json_str (s : String) : Plain.json lib (.str s) = .str s := rfl

@[simp] theorem Plain.json_instant (d : Time) :
    Plain.json lib (.instant d) = .str (lib.isoformat d) := rfl

@[simp] theorem Plain.json_dict (fields : List (String × Plain Time)) :
    Plain.json lib (.dict fields) = .obj (Plain.jsonFields lib fields) := rfl

@[simp] theorem Plain.jsonFields_nil : Plain.jsonFields lib [] = [] := rfl

@[simp] theorem Plain.jsonFields_cons (k : String) (v : Plain Time)
    (fs : List (String × Plain Time)) :
    Plain.jsonFields lib ((k, v) :: fs) = (k, Plain.json lib v) :: Plain.jsonFields lib fs := rfl

theorem instant?_json {d : Time} (h : lib.ReadsInstant d) :
    instant? lib (Plain.json lib (.instant d)) = some d := by
  rw [Plain.json_instant]
  exact h

theorem moment_json {d : Option Time} (h : ∀ t ∈ d, lib.ReadsInstant t) :
    moment lib (Plain.json lib (.optional .instant d)) = some d := by
  cases d with
  | none => simp only [Plain.optional, Plain.json_null, moment, Value.orNone]
  | some t =>
      have ht := instant?_json (h t rfl)
      simp only [Plain.json_instant] at ht
      simp only [Plain.optional, Plain.json_instant, moment, Value.orNone, ht, Option.map_some]

theorem programRef_ofJson (p : ProgramRef) :
    ProgramRef.ofJson (Plain.json lib p.asdict) = some p := by
  have hid : Value.nat? (.int p.id) = some p.id := rfl
  simp [ProgramRef.asdict, ProgramRef.ofJson, Value.hasExactly,
    Value.get, hid, Value.str?, Value.bool?]

theorem maxSourcePoints_json (m : Option Int) :
    Value.orNone Value.int? (Plain.json lib (.optional .int m)) = some m := by
  cases m with
  | none => simp only [Plain.optional, Plain.json_null, Value.orNone]
  | some m =>
      simp only [Plain.optional, Plain.json_int, Value.orNone, Value.int?, Option.map_some]

theorem rateRule_ofJson (r : RateRule) (h : ∀ t ∈ r.effectiveTo, lib.ReadsInstant t) :
    RateRule.ofJson lib (Plain.json lib r.asdict) = some r := by
  have hid : Value.nat? (.int r.rateId) = some r.rateId := rfl
  simp [RateRule.asdict, RateRule.ofJson, Value.hasExactly,
    Value.get, hid, Value.int?, maxSourcePoints_json, moment_json h]

theorem bonusRule_ofJson (b : BonusRule) (hstart : lib.ReadsInstant b.startsAt)
    (hend : lib.ReadsInstant b.endsAt) :
    BonusRule.ofJson lib (Plain.json lib b.asdict) = some b := by
  have hid : Value.nat? (.int b.bonusId) = some b.bonusId := rfl
  have hstarts : instant? lib (.str (lib.isoformat b.startsAt)) = some b.startsAt := hstart
  have hends : instant? lib (.str (lib.isoformat b.endsAt)) = some b.endsAt := hend
  simp [BonusRule.asdict, BonusRule.ofJson, Value.get, hid,
    Value.int?, hstarts, hends]

theorem ifTruthy_rate (rate : Option RateRule)
    (h : ∀ t ∈ rate.bind RateRule.effectiveTo, lib.ReadsInstant t) :
    ifTruthy (RateRule.ofJson lib) (Plain.json lib (.optional RateRule.asdict rate)) =
      some rate := by
  cases rate with
  | none =>
      simp only [Plain.optional, Plain.json_null, ifTruthy, Value.truthy, Bool.false_eq_true,
        if_false]
  | some r =>
      have hfull : (Plain.json lib r.asdict).truthy = true := by
        simp [RateRule.asdict, Value.truthy]
      rw [Plain.optional, ifTruthy, if_pos hfull, rateRule_ofJson r h, Option.map_some]

theorem ifTruthy_bonus (bonus : Option BonusRule)
    (h : ∀ b ∈ bonus, lib.ReadsInstant b.startsAt ∧ lib.ReadsInstant b.endsAt) :
    ifTruthy (BonusRule.ofJson lib) (Plain.json lib (.optional BonusRule.asdict bonus)) =
      some bonus := by
  cases bonus with
  | none =>
      simp only [Plain.optional, Plain.json_null, ifTruthy, Value.truthy, Bool.false_eq_true,
        if_false]
  | some b =>
      obtain ⟨hstart, hend⟩ := h b rfl
      have hfull : (Plain.json lib b.asdict).truthy = true := by
        simp [BonusRule.asdict, Value.truthy]
      rw [Plain.optional, ifTruthy, if_pos hfull, bonusRule_ofJson b hstart hend, Option.map_some]

/-! ## The route -/

/-- What is assumed of the library for a route: that it reads this one tree, and
the instants in it. -/
structure TextLibrary.ReadsRoute (lib : TextLibrary Time) (route : RouteConfig) : Prop where
  json : lib.ReadsJson (route.asdict.json lib)
  instants : ∀ t ∈ route.instants, lib.ReadsInstant t

theorem mem_instants {route : RouteConfig} {t : Time} :
    t ∈ route.instants ↔ t ∈ route.rate.bind RateRule.effectiveTo ∨
      (∃ b ∈ route.bonus, t = b.startsAt ∨ t = b.endsAt) ∨ t ∈ route.validUntil := by
  simp only [RouteConfig.instants, List.mem_append, List.mem_flatMap, Option.mem_toList,
    List.mem_cons, List.not_mem_nil, or_false, or_assoc, Option.mem_def]

theorem deserialize_serialize {route : RouteConfig} (h : lib.ReadsRoute route) :
    deserializeRoute lib (serializeRoute lib route) = some route := by
  have htext : lib.loads (utf8 (serializeRoute lib route)) = some (route.asdict.json lib) :=
    h.json
  have hrate := ifTruthy_rate route.rate fun t ht => h.instants t (mem_instants.mpr (.inl ht))
  have hbonus := ifTruthy_bonus route.bonus fun b hb =>
    ⟨h.instants _ (mem_instants.mpr (.inr (.inl ⟨b, hb, .inl rfl⟩))),
      h.instants _ (mem_instants.mpr (.inr (.inl ⟨b, hb, .inr rfl⟩)))⟩
  have hvalid : moment lib (Plain.json lib (.optional .instant route.validUntil)) =
      some route.validUntil :=
    moment_json fun t ht => h.instants t (mem_instants.mpr (.inr (.inr ht)))
  rw [deserializeRoute, htext, Option.bind_some]
  simp [RouteConfig.asdict, RouteConfig.ofJson, Value.get, hrate,
    hbonus, hvalid, programRef_ofJson]

end

/-! ## The cache of texts -/

/-- A key's value in Redis and the instant Redis drops it. -/
structure TextEntry where
  payload : String
  expiresAt : Time

abbrev TextRedis := String → Option TextEntry

section

variable (lib : TextLibrary Time)

/-- `RouteCache.get`, when Redis answers. -/
def TextRedis.get (redis : TextRedis) (now : Time) (sourceCode destinationCode : String) :
    Option RouteConfig :=
  ((redis (routeCacheKey sourceCode destinationCode)).filter fun e =>
    decide (now < e.expiresAt)).bind fun e => deserializeRoute lib e.payload

/-- `RouteCache.set`, when Redis answers, at the instant `now`. -/
def TextRedis.store (redis : TextRedis) (cfg : QuoteConfig) (now : Time) (route : RouteConfig)
    (asked : Time) : TextRedis :=
  if ttlMs cfg route asked ≤ 0 then redis
  else Function.update redis (routeCacheKey route.source.code route.destination.code)
    (some ⟨serializeRoute lib route, now + ttlMs cfg route asked / 1000⟩)

end

section

variable {lib : TextLibrary Time}

/-- A route is read back as it was written, and what the cache gives while the
entry lives is priced as the route that was stored. -/
theorem route_round_trip {route : RouteConfig} (h : lib.ReadsRoute route) :
    deserializeRoute lib (serializeRoute lib route) = some route ∧
      ∀ (redis : TextRedis) (cfg : QuoteConfig) (now asked later : Time),
        0 < ttlMs cfg route asked → later < now + ttlMs cfg route asked / 1000 →
        ∀ (body : QuoteRequest) (quotedAt : Time),
          ((redis.store lib cfg now route asked).get lib later route.source.code
            route.destination.code).map (priceQuote cfg body quotedAt) =
              some (priceQuote cfg body quotedAt route) := by
  refine ⟨deserialize_serialize h, ?_⟩
  intro redis cfg now asked later httl hlive body quotedAt
  rw [TextRedis.get, TextRedis.store, if_neg (not_le.mpr httl), Function.update_self,
    Option.filter_some, if_pos (decide_eq_true hlive), Option.bind_some, deserialize_serialize h,
    Option.map_some]

/-- The cache of texts holds what the cache of routes does. -/
structure TextRedis.Mirrors (lib : TextLibrary Time) (texts : TextRedis) (redis : Redis) :
    Prop where
  entry : ∀ key, texts key =
    (redis key).map fun e => ⟨serializeRoute lib e.route, e.expiresAt⟩
  reads : ∀ key, ∀ e ∈ redis key, lib.ReadsRoute e.route

variable {texts : TextRedis} {redis : Redis}

theorem mirrors_empty : TextRedis.Mirrors lib (fun _ => none) (fun _ => none) where
  entry _ := rfl
  reads _ _ h := by cases h

theorem TextRedis.Mirrors.update (h : texts.Mirrors lib redis) (key : String)
    (e : Option CacheEntry) (hreads : ∀ x ∈ e, lib.ReadsRoute x.route) :
    TextRedis.Mirrors lib
      (Function.update texts key (e.map fun x => ⟨serializeRoute lib x.route, x.expiresAt⟩))
      (Function.update redis key e) where
  entry k := by
    rcases eq_or_ne k key with rfl | hk
    · simp only [Function.update_self]
    · simp only [Function.update_of_ne hk, h.entry]
  reads k x hx := by
    rcases eq_or_ne k key with rfl | hk
    · rw [Function.update_self] at hx
      exact hreads x hx
    · rw [Function.update_of_ne hk] at hx
      exact h.reads k x hx

/-- Storing, on both sides. -/
theorem TextRedis.Mirrors.store (h : texts.Mirrors lib redis) (cfg : QuoteConfig)
    (now asked : Time) {route : RouteConfig} (hreads : lib.ReadsRoute route) :
    TextRedis.Mirrors lib (texts.store lib cfg now route asked)
      (redis.store cfg now route asked) := by
  have hentry := h.update (routeCacheKey route.source.code route.destination.code)
    (some ⟨route, asked, now + ttlMs cfg route asked / 1000⟩) fun x hx => by
      cases hx
      exact hreads
  rw [Option.map_some] at hentry
  rw [TextRedis.store, Redis.store]
  split
  · exact h
  · exact hentry

/-- Losing or deleting an entry, on both sides. -/
theorem TextRedis.Mirrors.lose (h : texts.Mirrors lib redis) (key : String) :
    TextRedis.Mirrors lib (Function.update texts key none) (Function.update redis key none) :=
  h.update key none fun x hx => by cases hx

/-- What is read is the same. -/
theorem TextRedis.Mirrors.get (h : texts.Mirrors lib redis) (now : Time)
    (sourceCode destinationCode : String) :
    texts.get lib now sourceCode destinationCode = redis.get now sourceCode destinationCode := by
  have hreads := h.reads (routeCacheKey sourceCode destinationCode)
  rw [TextRedis.get, Redis.get, h.entry]
  generalize redis (routeCacheKey sourceCode destinationCode) = e at hreads
  cases e with
  | none => rfl
  | some e =>
      rw [Option.map_some, Option.filter_some, Option.filter_some]
      rcases lt_or_ge now e.expiresAt with hlive | hover
      · rw [if_pos (decide_eq_true hlive), if_pos (decide_eq_true hlive), Option.bind_some,
          deserialize_serialize (hreads e rfl), Option.map_some]
      · rw [if_neg (by simpa using hover), if_neg (by simpa using hover)]
        rfl

end

/-! ## One route -/

/-- The route of 1 June, with a bonus and a moment it changes at. -/
def sampleRoute : RouteConfig where
  source := ⟨1, "NOVA_REWARDS", true⟩
  destination := ⟨3, "SKYWARD_MILES", true⟩
  rate := some ⟨1, 1, 1, 1, 1000, 1000, some 500000, none⟩
  bonus := some ⟨1, 2500, 1780228800, 1782820800⟩
  validUntil := some 1780315500

/-- The texts of its instants. -/
def routeInstants : List (Time × String) := [
  (1780228800, "2026-05-31T12:00:00+00:00"),
  (1782820800, "2026-06-30T12:00:00+00:00"),
  (1780315500, "2026-06-01T12:05:00+00:00")]

/-- The library, as far as that route needs it. -/
def routeLibrary : TextLibrary Time :=
  tableLibrary routeInstants [sampleRoute.asdict.json (tableLibrary routeInstants [])]

theorem routeLibrary_reads : routeLibrary.ReadsRoute sampleRoute where
  json := by
    have hiso : routeLibrary.isoformat = (tableLibrary routeInstants []).isoformat := rfl
    have htree : sampleRoute.asdict.json routeLibrary =
        sampleRoute.asdict.json (tableLibrary routeInstants []) := by
      simp only [sampleRoute, RouteConfig.asdict, ProgramRef.asdict, RateRule.asdict,
        BonusRule.asdict, Plain.optional, Plain.json, Plain.jsonFields, hiso]
    rw [htree]
    exact tableLibrary_readsJson (List.nodup_singleton _) (List.mem_singleton_self _)
  instants := by
    intro t ht
    exact tableLibrary_readsInstant (by decide +kernel) (by decide +kernel) ht

/-- Three instants and a missing one, and a quote from the cache a second later. -/
theorem route_round_trip_sample :
    deserializeRoute routeLibrary (serializeRoute routeLibrary sampleRoute) =
        some sampleRoute ∧
      ((TextRedis.store routeLibrary (fun _ => none) sampleQuotes 1780315200 sampleRoute
        1780315200).get routeLibrary 1780315201 "NOVA_REWARDS" "SKYWARD_MILES").map
          (priceQuote sampleQuotes ⟨"NOVA_REWARDS", "SKYWARD_MILES", 3000⟩ 1780315201) =
        some (priceQuote sampleQuotes ⟨"NOVA_REWARDS", "SKYWARD_MILES", 3000⟩ 1780315201
          sampleRoute) := by
  obtain ⟨htext, hcache⟩ := route_round_trip routeLibrary_reads
  refine ⟨htext, ?_⟩
  exact hcache (fun _ => none) sampleQuotes 1780315200 1780315200 1780315201
    (by decide +kernel) (by decide +kernel) _ _

end LoyaltyTransfer
