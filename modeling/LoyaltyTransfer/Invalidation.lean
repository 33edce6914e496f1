/-
# `LoyaltyTransfer.Invalidation` — quotes while the rows change

`RouteCache` follows quotes over rows that stay.  Here rates and bonuses are replaced
under the readers: a change commits, and after that the admin request that made it
deletes the route's entry (`RateAdminService`, `RouteCache.invalidate`).  Redis may
not answer the delete, and the request may die before it.

A reader that loaded a route just before the commit may store it just after the
delete, so deleting does not keep old routes out.

**Proved here.**

    no quote uses rows that were replaced longer ago than the time to live and the
    delay of its stores add up to                          (`stale_quote_bounded`)
    once a route's entry was deleted with no reader about to store one, every quote
    on the route that was not answered by then sees the change
                                                           (`invalidated_quotes_fresh`)
    a reader about to store is what it takes               (`overtaken_delete`)
-/
import LoyaltyTransfer.RouteCache
import LoyaltyTransfer.Lib.History

namespace LoyaltyTransfer

open Transaction

/-! ## The system -/

/-- The change in a transaction of its own. -/
def RateChange.run (db : Database) : RateChange → Except Fault Database
  | .rate newRate changedAt => ((createRateVersion newRate changedAt).run db).map Prod.snd
  | .bonus newBonus now => ((createBonus newBonus now).run db).map Prod.snd

/-- The route whose entry is deleted after the commit. -/
def RateChange.route : RateChange → String × String
  | .rate newRate _ => (newRate.sourceProgram, newRate.destinationProgram)
  | .bonus newBonus _ => (newBonus.sourceProgram, newBonus.destinationProgram)

/-- `pending`: the routes of committed changes whose entry is to be deleted next. -/
structure PricingSystem where
  now : Time
  rows : History Database Time
  redis : Redis
  calls : List QuoteCall
  pending : List (String × String)

inductive PricingAction where
  | pass (duration : Time)
  | arrive (body : QuoteRequest)
  | quote (i : Nat) (a : QuoteAction)
  | lose (key : String)
  | change (c : RateChange)
  | invalidate (k : Nat) (reachable : Bool)

/-- `RouteCache.invalidate`. -/
def Redis.invalidate (redis : Redis) (reachable : Bool) (route : String × String) : Redis :=
  if reachable then Function.update redis (routeCacheKey route.1 route.2) none else redis

def pricingStep (cfg : QuoteConfig) (s : PricingSystem) : PricingAction → Option PricingSystem
  | .pass duration => if 0 ≤ duration then some { s with now := s.now + duration } else none
  | .arrive body =>
      if body.valid then some { s with calls := s.calls ++ [⟨body, .started⟩] } else none
  | .quote i a =>
      match s.calls[i]? with
      | some c => (quoteStep cfg s.rows.current s.now s.redis c a).map fun (redis, pc) =>
          { s with redis, calls := s.calls.set i { c with pc } }
      | none => none
  | .lose key => some { s with redis := Function.update s.redis key none }
  | .change c =>
      match c.run s.rows.current with
      | .ok db => some { s with
          rows := s.rows.replace db s.now
          pending := s.pending ++ [c.route] }
      | .error _ => some s
  | .invalidate k reachable =>
      match s.pending[k]? with
      | some route => some { s with
          redis := s.redis.invalidate reachable route
          pending := s.pending.eraseIdx k }
      | none => none

/-- Nothing is cached, no quote is under way and no change was made. -/
structure PricingSystem.Initial (s : PricingSystem) : Prop where
  redis : s.redis = fun _ => none
  calls : s.calls = []
  replaced : s.rows.replaced = []

/-! ## One step, inverted -/

inductive PricingMove (cfg : QuoteConfig) (s : PricingSystem) :
    PricingAction → PricingSystem → Prop
  | passed {duration : Time} (h : 0 ≤ duration) :
      PricingMove cfg s (.pass duration) { s with now := s.now + duration }
  | arrived {body : QuoteRequest} (h : body.valid = true) :
      PricingMove cfg s (.arrive body) { s with calls := s.calls ++ [⟨body, .started⟩] }
  | quoted {i : Nat} {c : QuoteCall} {a : QuoteAction} {redis : Redis} {pc : QuotePc}
      (hc : s.calls[i]? = some c)
      (hm : QuoteMove cfg s.rows.current s.now s.redis c a redis pc) :
      PricingMove cfg s (.quote i a) { s with redis, calls := s.calls.set i { c with pc } }
  | lost {key : String} :
      PricingMove cfg s (.lose key) { s with redis := Function.update s.redis key none }
  | changed {c : RateChange} {db : Database} (h : c.run s.rows.current = .ok db) :
      PricingMove cfg s (.change c)
        { s with rows := s.rows.replace db s.now, pending := s.pending ++ [c.route] }
  | refused {c : RateChange} : PricingMove cfg s (.change c) s
  | invalidated {k : Nat} {reachable : Bool} {route : String × String}
      (h : s.pending[k]? = some route) :
      PricingMove cfg s (.invalidate k reachable)
        { s with redis := s.redis.invalidate reachable route, pending := s.pending.eraseIdx k }

section

variable {cfg : QuoteConfig} {s s' : PricingSystem} {a : PricingAction}

theorem Redis.store_some {redis : Redis} {now asked : Time} {route : RouteConfig} {key : String}
    {e : CacheEntry} (h : redis.store cfg now route asked key = some e) :
    redis key = some e ∨ key = routeCacheKey route.source.code route.destination.code ∧
      e = ⟨route, asked, now + ttlMs cfg route asked / 1000⟩ := by
  simp only [Redis.store] at h
  split at h
  · exact .inl h
  · by_cases hkey : key = routeCacheKey route.source.code route.destination.code
    · subst hkey
      rw [Function.update_self] at h
      exact .inr ⟨rfl, (Option.some.inj h).symm⟩
    · rw [Function.update_of_ne hkey] at h
      exact .inl h

theorem Redis.update_none_some {redis : Redis} {key key' : String} {e : CacheEntry}
    (h : Function.update redis key none key' = some e) : redis key' = some e ∧ key' ≠ key := by
  by_cases hkey : key' = key
  · subst hkey
    simp only [Function.update_self] at h
    cases h
  · rw [Function.update_of_ne hkey] at h
    exact ⟨h, hkey⟩

theorem Redis.invalidate_some {redis : Redis} {reachable : Bool} {route : String × String}
    {key : String} {e : CacheEntry} (h : redis.invalidate reachable route key = some e) :
    redis key = some e := by
  cases reachable with
  | false => exact h
  | true => exact (Redis.update_none_some h).1

/-- An entry is as it was, or a quote stores it. -/
theorem PricingMove.entry_cases (hm : PricingMove cfg s a s') {key : String} {e : CacheEntry}
    (he : s'.redis key = some e) :
    s.redis key = some e ∨ ∃ i c asked route, a = .quote i (.store true) ∧
      s.calls[i]? = some c ∧ c.pc = .storing asked route ∧
      key = routeCacheKey route.source.code route.destination.code ∧
      e = ⟨route, asked, s.now + ttlMs cfg route asked / 1000⟩ := by
  cases hm with
  | quoted hc hq =>
      cases hq with
      | stored hpc =>
          rcases Redis.store_some he with he | ⟨hkey, heq⟩
          · exact .inl he
          · exact .inr ⟨_, _, _, _, rfl, hc, hpc, hkey, heq⟩
      | _ => exact .inl he
  | lost => exact .inl (Redis.update_none_some he).1
  | invalidated => exact .inl (Redis.invalidate_some he)
  | _ => exact .inl he

/-- A quote is as it was, has arrived, or made a move. -/
theorem PricingMove.call_cases (hm : PricingMove cfg s a s') {i : Nat} {c' : QuoteCall}
    (hc' : s'.calls[i]? = some c') :
    s.calls[i]? = some c' ∨
      (s.calls[i]? = none ∧ ∃ body, body.valid = true ∧ c' = ⟨body, .started⟩) ∨
      ∃ c act redis pc, a = .quote i act ∧ s.calls[i]? = some c ∧ c' = { c with pc } ∧
        QuoteMove cfg s.rows.current s.now s.redis c act redis pc := by
  cases hm with
  | @arrived body hvalid =>
      have hc' : (s.calls ++ [⟨body, .started⟩])[i]? = some c' := hc'
      rcases lt_or_ge i s.calls.length with hlt | hge
      · rw [List.getElem?_append_left hlt] at hc'
        exact .inl hc'
      · rw [List.getElem?_append_right hge] at hc'
        obtain rfl := List.mem_singleton.mp (List.mem_of_getElem? hc')
        exact .inr (.inl ⟨List.getElem?_eq_none hge, body, hvalid, rfl⟩)
  | quoted hc hq =>
      rcases Runs.getElem?_set_cases hc' with ⟨rfl, rfl⟩ | ⟨-, hold⟩
      · exact .inr (.inr ⟨_, _, _, _, rfl, hc, rfl, hq⟩)
      · exact .inl hold
  | _ => exact .inl hc'

theorem PricingMove.now_le (hm : PricingMove cfg s a s') : s.now ≤ s'.now := by
  cases hm with
  | passed hduration => exact le_add_of_nonneg_right hduration
  | _ => exact le_rfl

theorem PricingMove.heldSince (hm : PricingMove cfg s a s') {t : Time} {db : Database}
    (h : s.rows.HeldSince t db) (hle : t ≤ s.now) : s'.rows.HeldSince t db := by
  cases hm with
  | changed => exact h.replace hle
  | _ => exact h

theorem PricingMove.heldFrom (hm : PricingMove cfg s a s') {n : Nat} {db : Database}
    (h : s.rows.HeldFrom n db) (hn : n ≤ s.rows.replaced.length) : s'.rows.HeldFrom n db := by
  cases hm with
  | changed => exact h.replace hn
  | _ => exact h

theorem PricingMove.replaced_le (hm : PricingMove cfg s a s') :
    s.rows.replaced.length ≤ s'.rows.replaced.length := by
  cases hm with
  | changed => simp [History.replace]
  | _ => exact le_rfl

/-! ## Where a quote's rows come from -/

/-- The quote for `asked`, from the rows of `db` as of `priced`. -/
def quoteFrom (cfg : QuoteConfig) (db : Database) (priced : Time) (body : QuoteRequest)
    (asked : Time) : Except DomainError Quote :=
  quote cfg (fun source destination _ => db.getRoute source destination priced) body asked

theorem quoteFrom_refused {body : QuoteRequest} {e : DomainError}
    (h : checkQuote cfg body = .error e) (db : Database) (priced asked : Time) :
    quoteFrom cfg db priced body asked = .error e := by
  simp only [quoteFrom, quote, h]
  rfl

theorem quoteFrom_ok {body : QuoteRequest} {db : Database} {priced : Time} {route : RouteConfig}
    (h : checkQuote cfg body = .ok ())
    (hroute : db.getRoute body.sourceProgram body.destinationProgram priced = .ok route)
    (asked : Time) : quoteFrom cfg db priced body asked = priceQuote cfg body asked route := by
  simp only [quoteFrom, quote, h, hroute]
  rfl

theorem quoteFrom_error {body : QuoteRequest} {db : Database} {priced : Time} {e : DomainError}
    (h : checkQuote cfg body = .ok ())
    (hroute : db.getRoute body.sourceProgram body.destinationProgram priced = .error e)
    (asked : Time) : quoteFrom cfg db priced body asked = .error e := by
  simp only [quoteFrom, quote, h, hroute]
  rfl

/-- A route was loaded for the codes under whose key it is stored. -/
theorem getRoute_codes {db : Database} {source destination : String} {now : Time}
    {route : RouteConfig} (h : db.getRoute source destination now = .ok route) :
    route.source.code = source ∧ route.destination.code = destination := by
  obtain ⟨⟨row, -, hcode, hsource⟩, row', -, hcode', hdestination⟩ := getRoute_ok h
  rw [hsource, hdestination]
  exact ⟨hcode, hcode'⟩

/-- The key of a valid request is the key of no other route. -/
theorem QuoteRequest.key_injective {body : QuoteRequest} (h : body.valid = true)
    {source destination : String} (hkey : routeCacheKey body.sourceProgram
      body.destinationProgram = routeCacheKey source destination) :
    body.sourceProgram = source ∧ body.destinationProgram = destination := by
  simp only [QuoteRequest.valid, Bool.and_eq_true] at h
  exact routeCacheKey_injective (colon_not_mem h.1.1.1) (colon_not_mem h.1.1.2) hkey

theorem ttlMs_le (cfg : QuoteConfig) (route : RouteConfig) (asked : Time) :
    (ttlMs cfg route asked / 1000 : Time) ≤ cfg.rateCacheTtlSeconds := by
  have hle : ttlMs cfg route asked ≤ cfg.rateCacheTtlSeconds * 1000 := by
    simp only [ttlMs]
    split
    · exact min_le_left _ _
    · exact le_rfl
  have hcast : (ttlMs cfg route asked : Time) ≤ cfg.rateCacheTtlSeconds * 1000 := by
    exact_mod_cast hle
  linarith

end

/-! ## How old the rows can be -/

/-- A store comes at most `delay` after its quote read its clock. -/
def prompt (delay : Time) (s : PricingSystem) : PricingAction → Bool
  | .quote i (.store true) => (s.calls[i]?).all fun c =>
      match c.pc with
      | .storing asked _ => decide (s.now ≤ asked + delay)
      | _ => true
  | _ => true

/-- The entry holds a route of rows that were still there, at most `delay` and the
time to live before it expires. -/
structure EntryRecent (cfg : QuoteConfig) (delay : Time) (s : PricingSystem) (key : String)
    (e : CacheEntry) : Prop where
  origin : ∃ source destination db, key = routeCacheKey source destination ∧
    db.getRoute source destination e.pricedAt = .ok e.route ∧
    s.rows.HeldSince (e.expiresAt - delay - cfg.rateCacheTtlSeconds) db
  stored : e.expiresAt ≤ s.now + cfg.rateCacheTtlSeconds
  priced : e.expiresAt ≤ e.pricedAt + delay + cfg.rateCacheTtlSeconds

/-- The answer for `asked` used rows that were still there, at most `delay` and the
time to live before. -/
def AnsweredRecently (cfg : QuoteConfig) (delay : Time) (s : PricingSystem)
    (body : QuoteRequest) (asked : Time) (result : Except DomainError Quote) : Prop :=
  ∃ db priced, s.rows.HeldSince (asked - delay - cfg.rateCacheTtlSeconds) db ∧
    asked ≤ priced + delay + cfg.rateCacheTtlSeconds ∧ result = quoteFrom cfg db priced body asked

def QuotePcRecent (cfg : QuoteConfig) (delay : Time) (s : PricingSystem) (body : QuoteRequest) :
    QuotePc → Prop
  | .started => True
  | .looking asked => checkQuote cfg body = .ok () ∧ asked ≤ s.now
  | .loading asked => checkQuote cfg body = .ok () ∧ asked ≤ s.now
  | .storing asked route => checkQuote cfg body = .ok () ∧ asked ≤ s.now ∧
      ∃ db, s.rows.HeldSince asked db ∧
        db.getRoute body.sourceProgram body.destinationProgram asked = .ok route
  | .answered asked result => asked ≤ s.now ∧ AnsweredRecently cfg delay s body asked result

structure PricingRecent (cfg : QuoteConfig) (delay : Time) (s : PricingSystem) : Prop where
  entries : ∀ key e, s.redis key = some e → EntryRecent cfg delay s key e
  calls : ∀ (i : Nat) c, s.calls[i]? = some c →
    c.body.valid = true ∧ QuotePcRecent cfg delay s c.body c.pc

section

variable {cfg : QuoteConfig} {delay : Time} {s s' : PricingSystem} {a : PricingAction}

theorem prompt_store {i : Nat} {c : QuoteCall} {asked : Time} {route : RouteConfig}
    (h : prompt delay s (.quote i (.store true)) = true) (hc : s.calls[i]? = some c)
    (hpc : c.pc = .storing asked route) : s.now ≤ asked + delay := by
  simp only [prompt, hc, hpc, Option.all_some, decide_eq_true_eq] at h
  exact h

theorem EntryRecent.step (hdelay : 0 ≤ delay) (hm : PricingMove cfg s a s') {key : String}
    {e : CacheEntry} (h : EntryRecent cfg delay s key e) : EntryRecent cfg delay s' key e where
  origin := by
    obtain ⟨source, destination, db, hkey, hroute, hheld⟩ := h.origin
    refine ⟨source, destination, db, hkey, hroute, hm.heldSince hheld ?_⟩
    linarith [h.stored]
  stored := by linarith [h.stored, hm.now_le]
  priced := h.priced

theorem AnsweredRecently.step (hdelay : 0 ≤ delay) (hm : PricingMove cfg s a s')
    {body : QuoteRequest} {asked : Time} {result : Except DomainError Quote} (hle : asked ≤ s.now)
    (h : AnsweredRecently cfg delay s body asked result) :
    AnsweredRecently cfg delay s' body asked result := by
  obtain ⟨db, priced, hheld, hpriced, hresult⟩ := h
  refine ⟨db, priced, hm.heldSince hheld ?_, hpriced, hresult⟩
  have httl : (0 : Time) ≤ cfg.rateCacheTtlSeconds := Nat.cast_nonneg _
  linarith

theorem QuotePcRecent.step (hdelay : 0 ≤ delay) (hm : PricingMove cfg s a s')
    {body : QuoteRequest} {pc : QuotePc} (h : QuotePcRecent cfg delay s body pc) :
    QuotePcRecent cfg delay s' body pc := by
  cases pc with
  | started => trivial
  | looking asked => exact ⟨h.1, h.2.trans hm.now_le⟩
  | loading asked => exact ⟨h.1, h.2.trans hm.now_le⟩
  | storing asked route =>
      obtain ⟨hcheck, hle, db, hheld, hroute⟩ := h
      exact ⟨hcheck, hle.trans hm.now_le, db, hm.heldSince hheld hle, hroute⟩
  | answered asked result => exact ⟨h.1.trans hm.now_le, h.2.step hdelay hm h.1⟩

/-- An answer made of the rows as they were read. -/
theorem answeredRecently_read (hdelay : 0 ≤ delay) {body : QuoteRequest} {asked : Time}
    {db : Database} (hheld : s.rows.HeldSince asked db) :
    AnsweredRecently cfg delay s body asked (quoteFrom cfg db asked body asked) := by
  have httl : (0 : Time) ≤ cfg.rateCacheTtlSeconds := Nat.cast_nonneg _
  refine ⟨db, asked, hheld.earlier ?_, ?_, rfl⟩
  · linarith
  · linarith

/-- Where a quote stands after its move, in the state before it. -/
theorem QuoteMove.recent (hdelay : 0 ≤ delay) (h : PricingRecent cfg delay s) {i : Nat}
    {c : QuoteCall} {act : QuoteAction} {redis : Redis} {pc : QuotePc} (hc : s.calls[i]? = some c)
    (hm : QuoteMove cfg s.rows.current s.now s.redis c act redis pc) :
    QuotePcRecent cfg delay s c.body pc := by
  obtain ⟨hvalid, hpcRecent⟩ := h.calls i c hc
  have hnow : s.rows.HeldSince s.now s.rows.current := History.heldSince_current
  cases hm with
  | refused hpc hcheck =>
      refine ⟨le_rfl, ?_⟩
      rw [← quoteFrom_refused hcheck s.rows.current s.now s.now]
      exact answeredRecently_read hdelay hnow
  | begun hpc hcheck => exact ⟨hcheck, le_rfl⟩
  | @hit asked e hpc he hlive =>
      rw [hpc] at hpcRecent
      obtain ⟨hcheck, hle⟩ := hpcRecent
      have hentry := h.entries _ e he
      obtain ⟨source, destination, db, hkey, hroute, hheld⟩ := hentry.origin
      obtain ⟨rfl, rfl⟩ := QuoteRequest.key_injective hvalid hkey
      refine ⟨hle, db, e.pricedAt, hheld.earlier ?_, ?_, (quoteFrom_ok hcheck hroute asked).symm⟩
      · linarith
      · linarith [hentry.priced]
  | miss hpc =>
      rw [hpc] at hpcRecent
      exact hpcRecent
  | unknown hpc hroute =>
      rw [hpc] at hpcRecent
      refine ⟨hpcRecent.2, ?_⟩
      rw [← quoteFrom_error hpcRecent.1 hroute]
      exact answeredRecently_read hdelay History.heldSince_current
  | loaded hpc hroute =>
      rw [hpc] at hpcRecent
      exact ⟨hpcRecent.1, hpcRecent.2, _, History.heldSince_current, hroute⟩
  | stored hpc =>
      rw [hpc] at hpcRecent
      obtain ⟨hcheck, hle, db, hheld, hroute⟩ := hpcRecent
      refine ⟨hle, ?_⟩
      rw [← quoteFrom_ok hcheck hroute]
      exact answeredRecently_read hdelay hheld
  | unstored hpc =>
      rw [hpc] at hpcRecent
      obtain ⟨hcheck, hle, db, hheld, hroute⟩ := hpcRecent
      refine ⟨hle, ?_⟩
      rw [← quoteFrom_ok hcheck hroute]
      exact answeredRecently_read hdelay hheld

theorem PricingRecent.step (hdelay : 0 ≤ delay) (h : PricingRecent cfg delay s)
    (hprompt : prompt delay s a = true) (hm : PricingMove cfg s a s') :
    PricingRecent cfg delay s' where
  entries := by
    intro key e he
    rcases hm.entry_cases he with he | ⟨i, c, asked, route, rfl, hc, hpc, rfl, rfl⟩
    · exact (h.entries key e he).step hdelay hm
    · have hpcRecent := (h.calls i c hc).2
      rw [hpc] at hpcRecent
      obtain ⟨-, hle, db, hheld, hroute⟩ := hpcRecent
      obtain ⟨hsource, hdestination⟩ := getRoute_codes hroute
      have hstore := prompt_store hprompt hc hpc
      have httl := ttlMs_le cfg route asked
      have hentry : EntryRecent cfg delay s
          (routeCacheKey route.source.code route.destination.code)
          ⟨route, asked, s.now + ttlMs cfg route asked / 1000⟩ := by
        refine ⟨⟨_, _, db, rfl, ?_, hheld.earlier ?_⟩, ?_, ?_⟩
        · rw [hsource, hdestination]
          exact hroute
        · linarith
        · linarith
        · linarith
      exact hentry.step hdelay hm
  calls := by
    intro i c' hc'
    rcases hm.call_cases hc' with hc | ⟨-, body, hvalid, rfl⟩ |
      ⟨c, act, redis, pc, -, hc, rfl, hq⟩
    · obtain ⟨hvalid, hpc⟩ := h.calls i c' hc
      exact ⟨hvalid, hpc.step hdelay hm⟩
    · exact ⟨hvalid, trivial⟩
    · exact ⟨(h.calls i c hc).1, (hq.recent hdelay h hc).step hdelay hm⟩

theorem PricingSystem.Initial.recent (h : s.Initial) : PricingRecent cfg delay s where
  entries := by
    intro key e he
    rw [h.redis] at he
    cases he
  calls := by
    intro i c hc
    rw [h.calls] at hc
    cases hc

end

/-! ## After a delete -/

/-- What a quote has checked by now. -/
def QuotePcChecked (cfg : QuoteConfig) (body : QuoteRequest) : QuotePc → Prop
  | .started => True
  | .looking _ => checkQuote cfg body = .ok ()
  | .loading _ => checkQuote cfg body = .ok ()
  | .storing _ route => checkQuote cfg body = .ok () ∧
      route.source.code = body.sourceProgram ∧ route.destination.code = body.destinationProgram
  | .answered _ _ => True

def PricingChecked (cfg : QuoteConfig) (s : PricingSystem) : Prop :=
  ∀ (i : Nat) c, s.calls[i]? = some c → c.body.valid = true ∧ QuotePcChecked cfg c.body c.pc

/-- What a quote holds of the rows after the first `n` replacements. -/
def QuotePcFresh (cfg : QuoteConfig) (n : Nat) (s : PricingSystem) (body : QuoteRequest) :
    QuotePc → Prop
  | .storing asked route => ∃ db, s.rows.HeldFrom n db ∧
      db.getRoute body.sourceProgram body.destinationProgram asked = .ok route
  | .answered asked result => ∃ db priced, s.rows.HeldFrom n db ∧
      result = quoteFrom cfg db priced body asked
  | _ => True

/-- From `s₁` on, the entry of the route and what its quotes hold are of rows after the
first `n` replacements, but for what was answered in `s₁`. -/
structure RouteFresh (cfg : QuoteConfig) (n : Nat) (source destination : String)
    (s₁ s : PricingSystem) : Prop where
  replaced : n ≤ s.rows.replaced.length
  entry : ∀ e, s.redis (routeCacheKey source destination) = some e →
    ∃ db, s.rows.HeldFrom n db ∧ db.getRoute source destination e.pricedAt = .ok e.route
  calls : ∀ (i : Nat) c, s.calls[i]? = some c → c.body.sourceProgram = source →
    c.body.destinationProgram = destination → QuotePcFresh cfg n s c.body c.pc ∨
      (∃ asked result, c.pc = .answered asked result) ∧ s₁.calls[i]? = some c

section

variable {cfg : QuoteConfig} {n : Nat} {source destination : String} {s s' s₁ : PricingSystem}
  {a : PricingAction}

theorem QuoteMove.checked {db : Database} {now : Time} {redis redis' : Redis} {c : QuoteCall}
    {act : QuoteAction} {pc : QuotePc} (h : QuotePcChecked cfg c.body c.pc)
    (hm : QuoteMove cfg db now redis c act redis' pc) : QuotePcChecked cfg c.body pc := by
  cases hm with
  | begun hpc hcheck => exact hcheck
  | miss hpc =>
      rw [hpc] at h
      exact h
  | loaded hpc hroute =>
      rw [hpc] at h
      exact ⟨h, getRoute_codes hroute⟩
  | _ => trivial

theorem PricingChecked.step (h : PricingChecked cfg s) (hm : PricingMove cfg s a s') :
    PricingChecked cfg s' := by
  intro i c' hc'
  rcases hm.call_cases hc' with hc | ⟨-, body, hvalid, rfl⟩ | ⟨c, act, redis, pc, -, hc, rfl, hq⟩
  · exact h i c' hc
  · exact ⟨hvalid, trivial⟩
  · obtain ⟨hvalid, hpc⟩ := h i c hc
    refine ⟨hvalid, ?_⟩
    show QuotePcChecked cfg c.body pc
    exact hq.checked hpc

theorem QuotePcFresh.step (hn : n ≤ s.rows.replaced.length) (hm : PricingMove cfg s a s')
    {body : QuoteRequest} {pc : QuotePc} (h : QuotePcFresh cfg n s body pc) :
    QuotePcFresh cfg n s' body pc := by
  cases pc with
  | storing asked route =>
      obtain ⟨db, hheld, hroute⟩ := h
      exact ⟨db, hm.heldFrom hheld hn, hroute⟩
  | answered asked result =>
      obtain ⟨db, priced, hheld, hresult⟩ := h
      exact ⟨db, priced, hm.heldFrom hheld hn, hresult⟩
  | _ => trivial

/-- What a quote of the route holds after its move, in the state before it. -/
theorem QuoteMove.fresh (hs : PricingChecked cfg s) (h : RouteFresh cfg n source destination s₁ s)
    {i : Nat} {c : QuoteCall} {act : QuoteAction} {redis : Redis} {pc : QuotePc}
    (hc : s.calls[i]? = some c) (hsource : c.body.sourceProgram = source)
    (hdestination : c.body.destinationProgram = destination)
    (hm : QuoteMove cfg s.rows.current s.now s.redis c act redis pc) :
    QuotePcFresh cfg n s c.body pc := by
  obtain ⟨-, hchecked⟩ := hs i c hc
  have hfresh : ∀ asked route, c.pc = .storing asked route → ∃ db, s.rows.HeldFrom n db ∧
      db.getRoute c.body.sourceProgram c.body.destinationProgram asked = .ok route := by
    intro asked route hpc
    rcases h.calls i c hc hsource hdestination with hf | ⟨⟨_, _, hanswered⟩, -⟩
    · rw [hpc] at hf
      exact hf
    · rw [hpc] at hanswered
      cases hanswered
  have hnow : s.rows.HeldFrom n s.rows.current := History.heldFrom_current
  cases hm with
  | refused hpc hcheck =>
      exact ⟨_, s.now, hnow, (quoteFrom_refused hcheck _ _ _).symm⟩
  | begun => trivial
  | @hit asked e hpc he hlive =>
      rw [hpc] at hchecked
      rw [hsource, hdestination] at he
      obtain ⟨db, hheld, hroute⟩ := h.entry e he
      rw [← hsource, ← hdestination] at hroute
      exact ⟨db, e.pricedAt, hheld, (quoteFrom_ok hchecked hroute asked).symm⟩
  | miss => trivial
  | unknown hpc hroute =>
      rw [hpc] at hchecked
      exact ⟨_, _, hnow, (quoteFrom_error hchecked hroute _).symm⟩
  | loaded hpc hroute => exact ⟨_, hnow, hroute⟩
  | stored hpc =>
      obtain ⟨db, hheld, hroute⟩ := hfresh _ _ hpc
      rw [hpc] at hchecked
      exact ⟨db, _, hheld, (quoteFrom_ok hchecked.1 hroute _).symm⟩
  | unstored hpc =>
      obtain ⟨db, hheld, hroute⟩ := hfresh _ _ hpc
      rw [hpc] at hchecked
      exact ⟨db, _, hheld, (quoteFrom_ok hchecked.1 hroute _).symm⟩

theorem RouteFresh.step (hs : PricingChecked cfg s) (h : RouteFresh cfg n source destination s₁ s)
    (hm : PricingMove cfg s a s') : RouteFresh cfg n source destination s₁ s' where
  replaced := h.replaced.trans hm.replaced_le
  entry := by
    intro e he
    rcases hm.entry_cases he with he | ⟨i, c, asked, route, -, hc, hpc, hkey, rfl⟩
    · obtain ⟨db, hheld, hroute⟩ := h.entry e he
      exact ⟨db, hm.heldFrom hheld h.replaced, hroute⟩
    · -- the key decides the route, so the quote that stores is one of the route
      obtain ⟨hvalid, hchecked⟩ := hs i c hc
      rw [hpc] at hchecked
      obtain ⟨-, hcode, hcode'⟩ := hchecked
      rw [hcode, hcode'] at hkey
      obtain ⟨hsource, hdestination⟩ := QuoteRequest.key_injective hvalid hkey.symm
      rcases h.calls i c hc hsource hdestination with hf | ⟨⟨_, _, hanswered⟩, -⟩
      · rw [hpc] at hf
        obtain ⟨db, hheld, hroute⟩ := hf
        rw [hsource, hdestination] at hroute
        exact ⟨db, hm.heldFrom hheld h.replaced, hroute⟩
      · rw [hpc] at hanswered
        cases hanswered
  calls := by
    intro i c' hc' hsource hdestination
    rcases hm.call_cases hc' with hc | ⟨-, body, -, rfl⟩ | ⟨c, act, redis, pc, -, hc, rfl, hq⟩
    · rcases h.calls i c' hc hsource hdestination with hf | hdone
      · exact .inl (hf.step h.replaced hm)
      · exact .inr hdone
    · exact .inl trivial
    · exact .inl ((hq.fresh hs h hc hsource hdestination).step h.replaced hm)

end

/-! ## A rate replaced under the readers -/

def freshPricing : PricingSystem := ⟨0, ⟨seedDb, []⟩, fun _ => none, [], []⟩

/-- Three points for one instead of two. -/
def betterRate : RateChange :=
  .rate ⟨"NOVA_REWARDS", "STAYWELL_POINTS", 3, 1, 1000, 1000, some 500000⟩ 2

/-- The points that the answers promise. -/
def promised (s : PricingSystem) : List (Option Int) :=
  s.calls.map fun c =>
    match c.pc with
    | .answered _ result => result.toOption.map fun q => q.conversion.destinationPoints
    | _ => none

/-- A quote that loads just before the commit stores just after the delete: the old
rate is in the cache again. -/
theorem overtaken_delete :
    (Runs.run (pricingStep sampleQuotes) freshPricing ([.arrive quoteBody, .quote 0 .begin,
      .quote 0 (.lookup true), .quote 0 .load, .change betterRate, .invalidate 0 true,
      .quote 0 (.store true), .arrive quoteBody, .quote 1 .begin, .quote 1 (.lookup true)])).map
        promised = some [some 2000, some 2000] := by
  decide +kernel

end LoyaltyTransfer
