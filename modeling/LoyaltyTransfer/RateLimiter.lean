/-
# `LoyaltyTransfer.RateLimiter` — at most so many transfers per window

`app/cache/rate_limiter.py`: one Redis key per subject and window of the clock,
counted with INCR and given a time to live that outlasts the window by a second.

    | `hit`, Redis answers            | count the hit, allow it up to `limit` |
    | `hit`, Redis does not answer    | allow it, count nothing               |

A clock reading is an exact number of seconds: `time.time()` today is a multiple
of 2⁻²² seconds, so that `//` and the subtraction in `retry_after` are exact.
INCR and EXPIRE are one transaction, and both are taken at the instant of the
reading.

**Proved here.**  A window's counter holds the number of hits in it until it ends
(`LimiterSound.counted`), so a hit is allowed exactly when fewer than `limit`
came before it in its window.  From that: at most `limit` in a window, `2 · limit`
in any time of a window's length, and a client that waits as told is in a later
window (`hits_limited`).
-/
import LoyaltyTransfer.Schema
import LoyaltyTransfer.Lib.Runs

namespace LoyaltyTransfer

/-! ## The limiter -/

structure RateLimitDecision where
  allowed : Bool
  limit : Nat
  remaining : Nat
  retryAfterSeconds : Int
  deriving DecidableEq

structure FixedWindowRateLimiter where
  scope : String
  limit : Nat
  windowSeconds : Nat

/-- A key of Redis that INCR and EXPIRE have written. -/
structure Counter where
  count : Nat
  expiresAt : Time

abbrev Counters := String → Option Counter

/-- What INCR finds. -/
def Counters.live (counters : Counters) (key : String) (now : Time) : Nat :=
  ((counters key).filter fun c => decide (now < c.expiresAt)).elim 0 Counter.count

/-- A call of `hit`: for whom, when, and whether Redis answers it. -/
structure Hit where
  subject : String
  now : Time
  reachable : Bool
  deriving DecidableEq

section

variable (l : FixedWindowRateLimiter)

def FixedWindowRateLimiter.window (now : Time) : Int := ⌊now / l.windowSeconds⌋

def FixedWindowRateLimiter.key (subject : String) (window : Int) : String :=
  s!"ratelimit:{l.scope}:{subject}:{window}"

def FixedWindowRateLimiter.retryAfter (now : Time) : Int :=
  max 1 ⌈((l.window now : Time) + 1) * l.windowSeconds - now⌉

def FixedWindowRateLimiter.hit (counters : Counters) (h : Hit) : Counters × RateLimitDecision :=
  if h.reachable then
    let key := l.key h.subject (l.window h.now)
    let count := counters.live key h.now + 1
    (Function.update counters key (some ⟨count, h.now + (l.windowSeconds + 1)⟩), {
      allowed := decide (count ≤ l.limit)
      limit := l.limit
      remaining := l.limit - count
      retryAfterSeconds := l.retryAfter h.now })
  else (counters, ⟨true, l.limit, l.limit, 0⟩)

/-- What `enforce_transfer_rate_limit` makes of the decision. -/
def FixedWindowRateLimiter.enforce (decision : RateLimitDecision) : Except DomainError Unit :=
  if decision.allowed then pure ()
  else throw {
    code := .rateLimited
    detail := s!"At most {decision.limit} transfers per {l.windowSeconds} s."
    extra := [("retry_after_seconds", .int decision.retryAfterSeconds)] }

/-! ## Many hits -/

/-- The counters, the last reading of the clock, and every hit so far with its
decision. -/
structure LimiterState where
  counters : Counters
  now : Time
  log : List (Hit × RateLimitDecision)

/-- The clock does not go back. -/
def limiterStep (s : LimiterState) (h : Hit) : Option LimiterState :=
  if s.now ≤ h.now then
    some ⟨(l.hit s.counters h).1, h.now, s.log ++ [(h, (l.hit s.counters h).2)]⟩
  else none

/-- No window has been counted yet. -/
structure LimiterState.Initial (s : LimiterState) : Prop where
  counters : ∀ subject window, s.counters (l.key subject window) = none
  log : s.log = []

/-- How many of the subject's hits fell in the window. -/
def FixedWindowRateLimiter.hitsIn (log : List (Hit × RateLimitDecision)) (subject : String)
    (window : Int) : Nat :=
  log.countP fun x => decide (x.1.subject = subject ∧ l.window x.1.now = window)

/-- How many of them were allowed. -/
def FixedWindowRateLimiter.allowedIn (log : List (Hit × RateLimitDecision)) (subject : String)
    (window : Int) : Nat :=
  log.countP fun x => x.2.allowed && decide (x.1.subject = subject ∧ l.window x.1.now = window)

/-- How many were allowed from `start` on, in a time as long as a window. -/
def FixedWindowRateLimiter.allowedFrom (log : List (Hit × RateLimitDecision)) (subject : String)
    (start : Time) : Nat :=
  log.countP fun x => x.2.allowed &&
    decide (x.1.subject = subject ∧ start ≤ x.1.now ∧ x.1.now ≤ start + l.windowSeconds)

end

/-! ## The windows -/

section

variable {l : FixedWindowRateLimiter}

theorem window_eq_iff (hw : 0 < l.windowSeconds) {t : Time} {window : Int} :
    l.window t = window ↔
      (window : Time) * l.windowSeconds ≤ t ∧ t < (window + 1) * l.windowSeconds := by
  have hpos : (0 : Time) < l.windowSeconds := by exact_mod_cast hw
  rw [FixedWindowRateLimiter.window, Int.floor_eq_iff, le_div_iff₀ hpos, div_lt_iff₀ hpos]

theorem window_mono (hw : 0 < l.windowSeconds) {t t' : Time} (h : t ≤ t') :
    l.window t ≤ l.window t' := by
  have hpos : (0 : Time) < l.windowSeconds := by exact_mod_cast hw
  exact Int.floor_le_floor ((div_le_div_iff_of_pos_right hpos).mpr h)

/-- A window's length later is one window later. -/
theorem window_add_windowSeconds (hw : 0 < l.windowSeconds) (t : Time) :
    l.window (t + l.windowSeconds) = l.window t + 1 := by
  have hne : (l.windowSeconds : Time) ≠ 0 := by exact_mod_cast hw.ne'
  rw [FixedWindowRateLimiter.window, add_div, div_self hne, Int.floor_add_one]
  rfl

/-- Waiting as told leads to a later window. -/
theorem window_lt_retryAfter (hw : 0 < l.windowSeconds) (now : Time) :
    l.window now < l.window (now + l.retryAfter now) := by
  have hpos : (0 : Time) < l.windowSeconds := by exact_mod_cast hw
  have hmax : ⌈((l.window now : Time) + 1) * l.windowSeconds - now⌉ ≤ l.retryAfter now :=
    le_max_right _ _
  have hceil : ((l.window now : Time) + 1) * l.windowSeconds - now ≤ l.retryAfter now :=
    (Int.le_ceil _).trans (Int.cast_le.mpr hmax)
  have hend : ((l.window now + 1 : Int) : Time) ≤ (now + l.retryAfter now) / l.windowSeconds := by
    rw [le_div_iff₀ hpos]
    push_cast
    linarith
  exact Int.lt_of_lt_of_le (Int.lt_succ _) (Int.le_floor.mpr hend)

theorem key_toList (subject : String) (window : Int) :
    (l.key subject window).toList =
      ("ratelimit:" ++ l.scope ++ ":").toList ++
        (subject.toList ++ ':' :: (toString window).toList) := by
  have hkey : l.key subject window =
      "ratelimit:" ++ l.scope ++ ":" ++ subject ++ ":" ++ toString window := rfl
  rw [hkey]
  simp only [String.toList_append, List.append_assoc]
  rfl

/-- A key belongs to one subject and window, whatever the subject's name: the
window's number holds no colon. -/
theorem key_injective {subject subject' : String} {window window' : Int}
    (h : l.key subject window = l.key subject' window') :
    subject = subject' ∧ window = window' := by
  have hlist := congrArg String.toList h
  rw [key_toList, key_toList] at hlist
  have hreversed := congrArg List.reverse (List.append_cancel_left hlist)
  simp only [List.reverse_append, List.reverse_cons, List.append_assoc, List.singleton_append]
    at hreversed
  have hdigits : ∀ n : Int, ∀ c ∈ (toString n).toList.reverse, Json.isNumChar c = true := by
    intro n c hc
    exact Json.isNumChar_toString n c (List.mem_reverse.mp hc)
  obtain ⟨hwindow, hrest⟩ := Json.number_inj (hdigits window) (hdigits window')
    (Json.stops_cons rfl) (Json.stops_cons rfl) hreversed
  have hsubject := List.reverse_injective (List.cons.inj hrest).2
  exact ⟨String.toList_inj.mp hsubject,
    Int.repr_injective (String.toList_inj.mp (List.reverse_injective hwindow))⟩

end

/-! ## What a run keeps -/

section

variable {l : FixedWindowRateLimiter} {subject : String} {s s' : LimiterState} {h : Hit}

theorem limiterStep_some (hstep : limiterStep l s h = some s') :
    s.now ≤ h.now ∧
      s' = ⟨(l.hit s.counters h).1, h.now, s.log ++ [(h, (l.hit s.counters h).2)]⟩ := by
  simp only [limiterStep] at hstep
  split at hstep
  · rename_i hle
    cases hstep
    exact ⟨hle, rfl⟩
  · cases hstep

theorem live_update_self {counters : Counters} {key : String} {c : Counter} {t : Time}
    (h : t < c.expiresAt) :
    Counters.live (Function.update counters key (some c)) key t = c.count := by
  simp [Counters.live, Option.filter_some, h]

theorem live_update_of_ne {counters : Counters} {key key' : String} {c : Option Counter}
    {t : Time} (h : key' ≠ key) :
    Counters.live (Function.update counters key c) key' t = counters.live key' t := by
  simp [Counters.live, Function.update_of_ne h]

theorem hitsIn_snoc (log : List (Hit × RateLimitDecision)) (h : Hit) (d : RateLimitDecision)
    (subject : String) (window : Int) :
    l.hitsIn (log ++ [(h, d)]) subject window = l.hitsIn log subject window +
      if h.subject = subject ∧ l.window h.now = window then 1 else 0 := by
  simp [FixedWindowRateLimiter.hitsIn, List.countP_append, List.countP_singleton]

/-- `subject`'s counters hold its hits, and every decision says how many came
before. -/
structure LimiterSound (l : FixedWindowRateLimiter) (subject : String) (s : LimiterState) :
    Prop where
  counted : ∀ (window : Int) t, s.now ≤ t → t < ((window : Time) + 1) * l.windowSeconds →
    s.counters.live (l.key subject window) t = l.hitsIn s.log subject window
  decided : ∀ pre x post, s.log = pre ++ x :: post → x.1.subject = subject →
    x.2.allowed = decide (l.hitsIn pre subject (l.window x.1.now) < l.limit)
  told : ∀ x ∈ s.log, x.2.retryAfterSeconds = l.retryAfter x.1.now

theorem LimiterState.Initial.sound (h₀ : s.Initial l) : LimiterSound l subject s where
  counted := by
    intro window t _ _
    simp [Counters.live, h₀.counters, h₀.log, FixedWindowRateLimiter.hitsIn]
  decided := by
    intro pre x post hlog
    rw [h₀.log] at hlog
    exact absurd hlog.symm (List.append_ne_nil_of_right_ne_nil _ (List.cons_ne_nil _ _))
  told := by simp [h₀.log]

/-- A hit sets the time to live anew, and it outlasts the window. -/
theorem LimiterSound.counted_hit (hI : LimiterSound l subject s) (hw : 0 < l.windowSeconds)
    (hreach : h.reachable = true) (hle : s.now ≤ h.now) {window : Int} {t : Time}
    (ht : h.now ≤ t) (hend : t < ((window : Time) + 1) * l.windowSeconds) :
    (l.hit s.counters h).1.live (l.key subject window) t =
      l.hitsIn (s.log ++ [(h, (l.hit s.counters h).2)]) subject window := by
  rw [hitsIn_snoc]
  simp only [FixedWindowRateLimiter.hit, hreach, if_true]
  rcases eq_or_ne (l.key subject window) (l.key h.subject (l.window h.now)) with hkey | hkey
  · -- its own window: counted one further, and alive until after its end
    obtain ⟨rfl, rfl⟩ := key_injective hkey
    obtain ⟨hstart, -⟩ := (window_eq_iff hw).mp (rfl : l.window h.now = l.window h.now)
    have halive : t < h.now + (l.windowSeconds + 1) := by linarith
    rw [live_update_self halive, if_pos ⟨rfl, rfl⟩,
      hI.counted _ h.now hle (lt_of_le_of_lt ht hend)]
  · -- another subject or another window
    have hother : ¬ (h.subject = subject ∧ l.window h.now = window) := by
      rintro ⟨rfl, rfl⟩
      exact hkey rfl
    rw [live_update_of_ne hkey, if_neg hother, Nat.add_zero, hI.counted _ t (hle.trans ht) hend]

/-- What one hit keeps. -/
theorem LimiterSound.step (hI : LimiterSound l subject s) (hw : 0 < l.windowSeconds)
    (hreach : h.reachable = true) (hstep : limiterStep l s h = some s') :
    LimiterSound l subject s' := by
  obtain ⟨hle, rfl⟩ := limiterStep_some hstep
  refine ⟨?_, ?_, ?_⟩
  · intro window t ht hend
    exact hI.counted_hit hw hreach hle ht hend
  · intro pre x post hlog hsubject
    rcases List.eq_nil_or_concat post with rfl | ⟨post, y, rfl⟩
    · -- the new hit
      obtain ⟨rfl, hx⟩ := List.append_inj' hlog rfl
      obtain rfl := (List.cons.inj hx).1
      have hend := ((window_eq_iff hw).mp (rfl : l.window h.now = l.window h.now)).2
      have hcount := hI.counted (l.window h.now) h.now hle hend
      subst hsubject
      simp only [FixedWindowRateLimiter.hit, hreach, if_true, hcount, Nat.add_one_le_iff]
    · rw [List.concat_eq_append, ← List.cons_append, ← List.append_assoc] at hlog
      exact hI.decided pre x post (List.append_inj' hlog rfl).1 hsubject
  · intro x hx
    rcases List.mem_append.mp hx with hx | hx
    · exact hI.told x hx
    · obtain rfl := List.mem_singleton.mp hx
      simp only [FixedWindowRateLimiter.hit, hreach, if_true]

end

/-! ## What the decisions add up to -/

section

variable {l : FixedWindowRateLimiter} {subject : String}

/-- Where every allowed hit had fewer than `limit` before it in its window, no
more than `limit` are allowed. -/
theorem allowedIn_le {log : List (Hit × RateLimitDecision)} {window : Int}
    (hdecided : ∀ pre x post, log = pre ++ x :: post → x.1.subject = subject →
      x.2.allowed = decide (l.hitsIn pre subject (l.window x.1.now) < l.limit)) :
    l.allowedIn log subject window ≤ l.limit := by
  induction log using List.reverseRecOn with
  | nil => exact Nat.zero_le _
  | append_singleton log x ih =>
      have hbefore : l.allowedIn log subject window ≤ l.limit := by
        refine ih ?_
        intro pre y post hlog hsubject
        refine hdecided pre y (post ++ [x]) ?_ hsubject
        rw [hlog, List.append_assoc, List.cons_append]
      rw [FixedWindowRateLimiter.allowedIn, List.countP_append, List.countP_singleton]
      split
      · -- the last hit is allowed: fewer than `limit` came before
        rename_i hmine
        obtain ⟨hallowed, hin⟩ := Bool.and_eq_true_iff.mp hmine
        obtain ⟨hsubject, rfl⟩ := of_decide_eq_true hin
        rw [hdecided log x [] rfl hsubject, decide_eq_true_eq] at hallowed
        have hle : (log.countP fun y => y.2.allowed &&
            decide (y.1.subject = subject ∧ l.window y.1.now = l.window x.1.now)) ≤
            l.hitsIn log subject (l.window x.1.now) := by
          refine List.countP_mono_left ?_
          intro y _ hy
          exact (Bool.and_eq_true_iff.mp hy).2
        omega
      · exact hbefore

theorem countP_le_add {α : Type} {p q r : α → Bool} {xs : List α}
    (h : ∀ x, p x = true → q x = true ∨ r x = true) :
    xs.countP p ≤ xs.countP q + xs.countP r := by
  induction xs with
  | nil => exact Nat.le_refl _
  | cons x xs ih =>
      simp only [List.countP_cons]
      have hx := h x
      cases hp : p x with
      | false =>
          simp only [Bool.false_eq_true, if_false]
          omega
      | true =>
          rcases hx hp with hq | hr
          · rw [hq]
            simp only [if_true]
            omega
          · rw [hr]
            simp only [if_true]
            omega

/-- A time as long as a window meets two windows. -/
theorem allowedFrom_le (hw : 0 < l.windowSeconds) (log : List (Hit × RateLimitDecision))
    (start : Time) :
    l.allowedFrom log subject start ≤
      l.allowedIn log subject (l.window start) + l.allowedIn log subject (l.window start + 1) := by
  refine countP_le_add ?_
  intro x hx
  obtain ⟨hallowed, hwithin⟩ := Bool.and_eq_true_iff.mp hx
  obtain ⟨hsubject, hfrom, hto⟩ := of_decide_eq_true hwithin
  have hlow := window_mono hw hfrom
  have hhigh := window_mono hw hto
  rw [window_add_windowSeconds hw] at hhigh
  simp only [hallowed, hsubject, Bool.true_and, true_and, decide_eq_true_eq]
  omega

theorem limiterRun_log {hits : List Hit} {s s' : LimiterState}
    (h : Runs.run (limiterStep l) s hits = some s') :
    s'.log.map Prod.fst = s.log.map Prod.fst ++ hits := by
  induction hits generalizing s with
  | nil =>
      cases h
      simp
  | cons hit hits ih =>
      obtain ⟨s₁, hstep, hrest⟩ := Runs.run_cons_eq_some.mp h
      obtain ⟨-, rfl⟩ := limiterStep_some hstep
      simp [ih hrest]

end

/-- Over any hits in the order of the clock, all answered by Redis: for each
subject at most `limit` are allowed in a window and `2 · limit` in a time as long
as a window, only a hit after `limit` others of its window is refused, waiting as
told leads to a later window, and no window's counter is lost before its end. -/
theorem hits_limited {l : FixedWindowRateLimiter} (hw : 0 < l.windowSeconds) {s₀ s : LimiterState}
    (h₀ : s₀.Initial l) {hits : List Hit} (hreach : ∀ h ∈ hits, h.reachable = true)
    (h : Runs.run (limiterStep l) s₀ hits = some s) (subject : String) :
    s.log.map Prod.fst = hits ∧
    (∀ window, l.allowedIn s.log subject window ≤ l.limit) ∧
    (∀ start, l.allowedFrom s.log subject start ≤ 2 * l.limit) ∧
    (∀ pre x post, s.log = pre ++ x :: post → x.1.subject = subject → x.2.allowed = false →
      l.limit ≤ l.hitsIn pre subject (l.window x.1.now)) ∧
    (∀ x ∈ s.log, l.window x.1.now < l.window (x.1.now + x.2.retryAfterSeconds)) ∧
    ∀ (window : Int) t, s.now ≤ t → t < ((window : Time) + 1) * l.windowSeconds →
      s.counters.live (l.key subject window) t = l.hitsIn s.log subject window := by
  have hsound : LimiterSound l subject s :=
    Runs.run_invariant_of (fun _ _ _ hI hC hstep => hI.step hw hC hstep) h₀.sound
      (Runs.allSteps_of_forall fun x hx _ => hreach x hx) h
  refine ⟨?_, ?_, ?_, ?_, ?_, hsound.counted⟩
  · rw [limiterRun_log h, h₀.log]
    rfl
  · intro window
    exact allowedIn_le hsound.decided
  · intro start
    have hfirst : l.allowedIn s.log subject (l.window start) ≤ l.limit :=
      allowedIn_le hsound.decided
    have hsecond : l.allowedIn s.log subject (l.window start + 1) ≤ l.limit :=
      allowedIn_le hsound.decided
    have htwo : l.allowedFrom s.log subject start ≤ l.allowedIn s.log subject (l.window start) +
        l.allowedIn s.log subject (l.window start + 1) := allowedFrom_le hw s.log start
    omega
  · intro pre x post hlog hsubject hrefused
    rw [hsound.decided pre x post hlog hsubject, decide_eq_false_iff_not] at hrefused
    exact Nat.le_of_not_lt hrefused
  · intro x hx
    rw [hsound.told x hx]
    exact window_lt_retryAfter hw x.1.now

def sampleLimiter : FixedWindowRateLimiter := ⟨"transfers", 1, 60⟩

def noHits : LimiterState := ⟨fun _ => none, 0, []⟩

theorem noHits_initial : noHits.Initial sampleLimiter := ⟨fun _ _ => rfl, rfl⟩

/-- Two hits at the end of a window and one at the start of the next. -/
def boundaryHits : List Hit :=
  [⟨"user_alice", 58, true⟩, ⟨"user_alice", 59, true⟩, ⟨"user_alice", 60, true⟩]

/-- The second is refused, the third allowed: two within 60 seconds. -/
theorem hits_limited_boundary :
    ∃ s, Runs.run (limiterStep sampleLimiter) noHits boundaryHits = some s ∧
      s.log.map (fun x => x.2.allowed) = [true, false, true] ∧
      sampleLimiter.allowedFrom s.log "user_alice" 0 ≤ 2 * 1 := by
  have hany : (Runs.run (limiterStep sampleLimiter) noHits boundaryHits).any
      (fun s => decide (s.log.map (fun x => x.2.allowed) = [true, false, true])) = true := by
    decide +kernel
  obtain ⟨s, hs, hlog⟩ := (Option.any_eq_true _ _).mp hany
  have hlimited := hits_limited (by decide) noHits_initial (by decide) hs "user_alice"
  exact ⟨s, hs, of_decide_eq_true hlog, hlimited.2.2.1 0⟩

end LoyaltyTransfer
