/-
# `LoyaltyTransfer.RateCalls` — calls of `create_rate_version` at once

Any number of calls, on any routes, each through the steps

    started    not yet validated, or waiting for the lock of its route
    locked     holds the route's advisory lock and has read `clock_timestamp()`
    loaded     has read the open version and the latest version number
    done, failed

The writes of a call take effect when it commits, and the lock is released then.

**Proved here.**  In every state of every run the versions of a route are
numbered 1..n, tile the time from the first one on and keep everything but an
open end, so `get_route` finds exactly one version at every instant; what it
finds at a past instant stays, once no call on the route that read its clock at
or before that instant is still under way (`rate_versions_tile`).  Such a call
moves the instant to its own version when it commits
(`past_instant_repriced`).
-/
import LoyaltyTransfer.RateVersions
import LoyaltyTransfer.Seed
import LoyaltyTransfer.Lib.Runs

namespace LoyaltyTransfer

open Transaction Timeline

inductive RatePc where
  | started
  | locked (sourceId destinationId : Nat) (changedAt : Time)
  | loaded (sourceId destinationId : Nat) (changedAt : Time) (current : Option ConversionRate)
      (latest : Int)
  | done (created : ConversionRate)
  | failed (f : Fault)

/-- One call of `create_rate_version`. -/
structure RateCall where
  newRate : NewRate
  pc : RatePc

structure RateSystem where
  db : Database
  calls : List RateCall

inductive RateAction where
  | call (newRate : NewRate)
  | lock (i : Nat) (changedAt : Time)
  | load (i : Nat)
  | write (i : Nat)
  | crash (i : Nat)

/-- The route whose lock the call holds. -/
def RatePc.lock? : RatePc → Option (Nat × Nat)
  | .locked sourceId destinationId _ => some (sourceId, destinationId)
  | .loaded sourceId destinationId _ _ _ => some (sourceId, destinationId)
  | _ => none

/-- What the call read from the clock, while it is under way. -/
def RatePc.changedAt? : RatePc → Option Time
  | .locked _ _ changedAt => some changedAt
  | .loaded _ _ changedAt _ _ => some changedAt
  | _ => none

/-- The route a call is about: it is validated and its programs are loaded. -/
def rateRoute (db : Database) (newRate : NewRate) : Except DomainError (Nat × Nat) := do
  validateRate newRate
  let source ← db.loadProgram newRate.sourceProgram
  let destination ← db.loadProgram newRate.destinationProgram
  pure (source.id, destination.id)

/-- Call `i` moves on. -/
def RateSystem.moved (s : RateSystem) (i : Nat) (newRate : NewRate) (pc : RatePc) : RateSystem :=
  { s with calls := s.calls.set i ⟨newRate, pc⟩ }

def rateStep (s : RateSystem) : RateAction → Option RateSystem
  | .call newRate => some { s with calls := s.calls ++ [⟨newRate, .started⟩] }
  | .lock i changedAt =>
      match s.calls[i]? with
      | some ⟨newRate, .started⟩ =>
          match rateRoute s.db newRate with
          | .error e => some (s.moved i newRate (.failed (.domain e)))
          | .ok (sourceId, destinationId) =>
              -- `pg_advisory_xact_lock` waits while another transaction holds it
              if ∃ c ∈ s.calls, c.pc.lock? = some (sourceId, destinationId) then none
              else some (s.moved i newRate (.locked sourceId destinationId changedAt))
      | _ => none
  | .load i =>
      match s.calls[i]? with
      | some ⟨newRate, .locked sourceId destinationId changedAt⟩ =>
          let route := s.db.rateVersions sourceId destinationId
          some (s.moved i newRate (.loaded sourceId destinationId changedAt
            (route.find? fun r => r.isCurrent) (latestVersion route)))
      | _ => none
  | .write i =>
      match s.calls[i]? with
      | some ⟨newRate, .loaded sourceId destinationId changedAt current latest⟩ =>
          match (writeVersion newRate sourceId destinationId changedAt current latest).commit
              s.db with
          | (.ok created, db) => some (({ s with db } : RateSystem).moved i newRate (.done created))
          | (.error f, _) => some (s.moved i newRate (.failed f))
      | _ => none
  | .crash i =>
      match s.calls[i]? with
      | some ⟨_, .done _⟩ | some ⟨_, .failed _⟩ | none => none
      | some ⟨newRate, _⟩ => some (s.moved i newRate (.failed (.runtime "crash")))

/-! ## What a step can do -/

/-- Under the lock a call reads its clock, then the versions; its commit writes. -/
inductive RateMove (s : RateSystem) (i : Nat) : RatePc → RateAction → Database → RatePc → Prop
  | locked {sourceId destinationId : Nat} {changedAt : Time}
      (hfree : ∀ c ∈ s.calls, c.pc.lock? ≠ some (sourceId, destinationId)) :
      RateMove s i .started (.lock i changedAt) s.db (.locked sourceId destinationId changedAt)
  | loaded {sourceId destinationId : Nat} {changedAt : Time} :
      RateMove s i (.locked sourceId destinationId changedAt) (.load i) s.db
        (.loaded sourceId destinationId changedAt
          ((s.db.rateVersions sourceId destinationId).find? fun r => r.isCurrent)
          (latestVersion (s.db.rateVersions sourceId destinationId)))
  | written {sourceId destinationId : Nat} {changedAt : Time} {current : Option ConversionRate}
      {latest : Int} {newRate : NewRate} {created : ConversionRate} {db : Database}
      (hrun : (writeVersion newRate sourceId destinationId changedAt current latest).run s.db =
        .ok (created, db)) :
      RateMove s i (.loaded sourceId destinationId changedAt current latest) (.write i) db
        (.done created)
  | failed {pc : RatePc} {a : RateAction} (f : Fault) : RateMove s i pc a s.db (.failed f)

inductive RateStep (s : RateSystem) : RateAction → RateSystem → Prop
  | call {newRate : NewRate} :
      RateStep s (.call newRate) { s with calls := s.calls ++ [⟨newRate, .started⟩] }
  | move {i : Nat} {newRate : NewRate} {pc pc' : RatePc} {a : RateAction} {db : Database}
      (hi : s.calls[i]? = some ⟨newRate, pc⟩) (hm : RateMove s i pc a db pc') :
      RateStep s a (({ s with db } : RateSystem).moved i newRate pc')

theorem rateStep_inv {s s' : RateSystem} {a : RateAction} (h : rateStep s a = some s') :
    RateStep s a s' := by
  cases a with
  | call newRate =>
      cases h
      exact .call
  | lock i changedAt =>
      simp only [rateStep] at h
      split at h
      · rename_i newRate hi
        split at h
        · cases h
          exact .move hi (.failed _)
        · split at h
          · cases h
          · rename_i hheld
            cases h
            exact .move hi (.locked fun c hc hlock => hheld ⟨c, hc, hlock⟩)
      · cases h
  | load i =>
      simp only [rateStep] at h
      split at h
      · rename_i hi
        cases h
        exact .move hi .loaded
      · cases h
  | write i =>
      simp only [rateStep] at h
      split at h
      · rename_i newRate sourceId destinationId changedAt current latest hi
        rcases Tx.commit_cases (writeVersion newRate sourceId destinationId changedAt current
          latest) s.db with ⟨created, db, hrun, hcommit⟩ | ⟨f, hrun, hcommit⟩
        · rw [hcommit] at h
          cases h
          exact .move hi (.written hrun)
        · rw [hcommit] at h
          cases h
          exact .move hi (.failed f)
      · cases h
  | crash i =>
      simp only [rateStep] at h
      split at h
      · cases h
      · cases h
      · cases h
      · rename_i newRate pc hdone hfailed hi
        cases h
        exact .move hi (.failed _)

/-! ## The invariant -/

/-- The lock keeps what a call has read about its route up to date. -/
structure RateSystem.Sound (s : RateSystem) : Prop where
  rates : RatesSound s.db
  exclusive : ∀ (i j : Nat) (c d : RateCall) (route : Nat × Nat), s.calls[i]? = some c →
    s.calls[j]? = some d → c.pc.lock? = some route → d.pc.lock? = some route → i = j
  loaded : ∀ (i : Nat) (c : RateCall) (sourceId destinationId : Nat) (changedAt : Time)
    (current : Option ConversionRate) (latest : Int), s.calls[i]? = some c →
    c.pc = .loaded sourceId destinationId changedAt current latest →
    current = ((s.db.rateVersions sourceId destinationId).find? fun r => r.isCurrent) ∧
      latest = latestVersion (s.db.rateVersions sourceId destinationId)

section

variable {s s' : RateSystem} {a : RateAction} {i : Nat} {newRate : NewRate} {pc pc' : RatePc}
  {db : Database}

/-- How call `j` came to be what it is after a step. -/
theorem RateStep.call_cases (h : RateStep s a s') {j : Nat} {c : RateCall}
    (hc : s'.calls[j]? = some c) :
    s.calls[j]? = some c ∨ (∃ newRate, c = ⟨newRate, .started⟩) ∨
      ∃ newRate pc, s.calls[j]? = some ⟨newRate, pc⟩ ∧ c.newRate = newRate ∧
        RateMove s j pc a s'.db c.pc := by
  cases h with
  | call =>
      rw [List.getElem?_append] at hc
      split at hc
      · exact .inl hc
      · rw [List.getElem?_singleton] at hc
        split at hc
        · cases hc
          exact .inr (.inl ⟨_, rfl⟩)
        · cases hc
  | @move i newRate pc pc' a db hi hm =>
      simp only [RateSystem.moved, List.getElem?_set] at hc
      split at hc
      · rename_i hij
        subst hij
        rw [if_pos (List.getElem?_eq_some_iff.mp hi).1] at hc
        cases hc
        exact .inr (.inr ⟨_, _, hi, rfl, hm⟩)
      · exact .inl hc

/-- A move keeps the lock it has and the clock reading with it, or takes a free
lock and reads the clock, or releases it. -/
theorem RateMove.lock (h : RateMove s i pc a db pc') {route : Nat × Nat}
    (hlock : pc'.lock? = some route) :
    (pc.lock? = some route ∧ pc'.changedAt? = pc.changedAt?) ∨
      (∃ changedAt, a = .lock i changedAt ∧ pc'.changedAt? = some changedAt) ∧
        ∀ c ∈ s.calls, c.pc.lock? ≠ some route := by
  cases h with
  | locked hfree =>
      cases hlock
      exact .inr ⟨⟨_, rfl, rfl⟩, hfree⟩
  | loaded => exact .inl ⟨hlock, rfl⟩
  | written => cases hlock
  | failed => cases hlock

/-- A lock that is held was held before, or the step took it. -/
theorem RateStep.lock (h : RateStep s a s') {j : Nat} {c : RateCall} {route : Nat × Nat}
    (hc : s'.calls[j]? = some c) (hlock : c.pc.lock? = some route) :
    (∃ c', s.calls[j]? = some c' ∧ c'.pc.lock? = some route ∧
        c.pc.changedAt? = c'.pc.changedAt?) ∨
      (∃ changedAt, a = .lock j changedAt ∧ c.pc.changedAt? = some changedAt) ∧
        ∀ x ∈ s.calls, x.pc.lock? ≠ some route := by
  rcases h.call_cases hc with hc | ⟨_, rfl⟩ | ⟨_, _, hc, -, hm⟩
  · exact .inl ⟨c, hc, hlock, rfl⟩
  · cases hlock
  · rcases hm.lock hlock with hpc | hfree
    · exact .inl ⟨_, hc, hpc⟩
    · exact .inr hfree

theorem RateSystem.Sound.exclusive_step (h : s.Sound) (hstep : RateStep s a s') (i j : Nat)
    (c d : RateCall) (route : Nat × Nat) (hc : s'.calls[i]? = some c) (hd : s'.calls[j]? = some d)
    (hclock : c.pc.lock? = some route) (hdlock : d.pc.lock? = some route) : i = j := by
  rcases hstep.lock hc hclock with ⟨c', hc', hclock', -⟩ | ⟨⟨_, ha, -⟩, hfree⟩
  · rcases hstep.lock hd hdlock with ⟨d', hd', hdlock', -⟩ | ⟨-, hfree⟩
    · exact h.exclusive i j c' d' route hc' hd' hclock' hdlock'
    · exact absurd hclock' (hfree c' (List.mem_of_getElem? hc'))
  · rcases hstep.lock hd hdlock with ⟨d', hd', hdlock', -⟩ | ⟨⟨_, ha', -⟩, -⟩
    · exact absurd hdlock' (hfree d' (List.mem_of_getElem? hd'))
    · rw [ha] at ha'
      cases ha'
      rfl

/-- What a step does to the rates: nothing, or one more version of a route whose
lock a call held and then releases. -/
theorem RateSystem.Sound.rates_step (h : s.Sound) (hstep : RateStep s a s') :
    s'.db = s.db ∨ ∃ i c sourceId destinationId changedAt created, a = .write i ∧
      s.calls[i]? = some c ∧ c.pc.lock? = some (sourceId, destinationId) ∧
      c.pc.changedAt? = some changedAt ∧
      (∃ c', s'.calls[i]? = some c' ∧ c'.pc.lock? = none) ∧
      VersionAdded s.db sourceId destinationId changedAt created s'.db ∧
      s'.db.programs = s.db.programs := by
  cases hstep with
  | call => exact .inl rfl
  | move hi hm =>
      cases hm with
      | locked => exact .inl rfl
      | loaded => exact .inl rfl
      | failed => exact .inl rfl
      | written hrun =>
          obtain ⟨rfl, rfl⟩ := h.loaded _ _ _ _ _ _ _ hi rfl
          obtain ⟨hadded, hprograms⟩ := writeVersion_added h.rates hrun
          have hlt := (List.getElem?_eq_some_iff.mp hi).1
          exact .inr ⟨_, _, _, _, _, _, rfl, hi, rfl, rfl,
            ⟨_, List.getElem?_set_self hlt, rfl⟩, hadded, hprograms⟩

/-- What a call reads under the lock. -/
theorem RateMove.loaded_eq (h : RateMove s i pc a db pc') {sourceId destinationId : Nat}
    {changedAt : Time} {current : Option ConversionRate} {latest : Int}
    (hpc : pc' = .loaded sourceId destinationId changedAt current latest) :
    current = ((s.db.rateVersions sourceId destinationId).find? fun r => r.isCurrent) ∧
      latest = latestVersion (s.db.rateVersions sourceId destinationId) := by
  cases h with
  | loaded =>
      cases hpc
      exact ⟨rfl, rfl⟩
  | _ => cases hpc

theorem RateSystem.Sound.loaded_step (h : s.Sound) (hstep : RateStep s a s') (j : Nat)
    (c : RateCall) (sourceId destinationId : Nat) (changedAt : Time)
    (current : Option ConversionRate) (latest : Int) (hc : s'.calls[j]? = some c)
    (hpc : c.pc = .loaded sourceId destinationId changedAt current latest) :
    current = ((s'.db.rateVersions sourceId destinationId).find? fun r => r.isCurrent) ∧
      latest = latestVersion (s'.db.rateVersions sourceId destinationId) := by
  have hlock : c.pc.lock? = some (sourceId, destinationId) := by rw [hpc]; rfl
  have hroute : s'.db.rateVersions sourceId destinationId =
      s.db.rateVersions sourceId destinationId := by
    rcases h.rates_step hstep with heq |
      ⟨i, d, sourceId', destinationId', _, _, ha, hd, hdlock, -, ⟨d', hd', hnone⟩, hadded, -⟩
    · rw [heq]
    · refine hadded.other_route fun hsame => ?_
      -- the writer held this lock, so it is call `j`, which holds it still
      rw [← hsame.1, ← hsame.2] at hdlock
      rcases hstep.lock hc hlock with ⟨c', hc', hclock', -⟩ | ⟨-, hfree⟩
      · obtain rfl := h.exclusive i j d c' _ hd hc' hdlock hclock'
        rw [hc] at hd'
        cases hd'
        rw [hlock] at hnone
        cases hnone
      · exact hfree d (List.mem_of_getElem? hd) hdlock
  rw [hroute]
  rcases hstep.call_cases hc with hc | ⟨_, rfl⟩ | ⟨_, _, hc, -, hm⟩
  · exact h.loaded j c _ _ _ _ _ hc hpc
  · cases hpc
  · exact hm.loaded_eq hpc

theorem RateSystem.Sound.step (h : s.Sound) (hstep : RateStep s a s') : s'.Sound where
  rates := by
    rcases h.rates_step hstep with heq | ⟨_, _, _, _, _, _, -, -, -, -, -, hadded, -⟩
    · rw [heq]
      exact h.rates
    · exact hadded.sound h.rates
  exclusive := h.exclusive_step hstep
  loaded := h.loaded_step hstep

end

/-! ## Along a run -/

section

variable {s₀ s s' : RateSystem} {as bs : List RateAction}

/-- No call yet, each route with no version or with its first one. -/
structure RateSystem.Initial (s : RateSystem) : Prop where
  rates : RatesSeeded s.db
  calls : s.calls = []

theorem RateSystem.Initial.sound (h : s.Initial) : s.Sound where
  rates := h.rates.sound
  exclusive := by
    intro i j c d route hc
    rw [h.calls] at hc
    cases hc
  loaded := by
    intro i c _ _ _ _ _ hc
    rw [h.calls] at hc
    cases hc

theorem run_rateSound (h₀ : s₀.Initial) (h : Runs.run rateStep s₀ as = some s) : s.Sound :=
  Runs.run_invariant (I := RateSystem.Sound) (fun _ _ _ hI hstep => hI.step (rateStep_inv hstep))
    h₀.sound h

/-- Versions are kept along a run, but for the end of an open one. -/
theorem run_kept (hs : s.Sound) (h : Runs.run rateStep s bs = some s') {r : ConversionRate}
    (hr : r ∈ s.db.conversionRates) : ∃ r' ∈ s'.db.conversionRates, r.Kept r' := by
  have hI := Runs.run_invariant
    (I := fun x => x.Sound ∧ ∃ r' ∈ x.db.conversionRates, r.Kept r')
    (fun x a x' hx hstep => ?_) ⟨hs, r, hr, .inl rfl⟩ h
  · exact hI.2
  · obtain ⟨hsound, r₁, hr₁, hkept⟩ := hx
    have hstep := rateStep_inv hstep
    refine ⟨hsound.step hstep, ?_⟩
    rcases hsound.rates_step hstep with heq | ⟨_, _, _, _, _, _, -, -, -, -, -, hadded, -⟩
    · rw [heq]
      exact ⟨r₁, hr₁, hkept⟩
    · obtain ⟨r₂, hr₂, hkept₂⟩ := hadded.kept hr₁
      exact ⟨r₂, hr₂, hkept.trans hkept₂⟩

/-- Every call that holds the lock of the route read its clock after `now`. -/
def RateSystem.PastAt (s : RateSystem) (sourceId destinationId : Nat) (now : Time) : Prop :=
  ∀ (i : Nat) (c : RateCall) (changedAt : Time), s.calls[i]? = some c →
    c.pc.lock? = some (sourceId, destinationId) → c.pc.changedAt? = some changedAt →
    now < changedAt

theorem RateSystem.PastAt.step {sourceId destinationId : Nat} {now : Time} {a : RateAction}
    (h : s.PastAt sourceId destinationId now) (hstep : RateStep s a s')
    (hclock : ∀ i changedAt, a = .lock i changedAt → now < changedAt) :
    s'.PastAt sourceId destinationId now := by
  intro i c changedAt hc hlock hdate
  rcases hstep.lock hc hlock with ⟨c', hc', hlock', heq⟩ | ⟨⟨changedAt', ha, hdate'⟩, -⟩
  · exact h i c' changedAt hc' hlock' (by rw [← heq]; exact hdate)
  · rw [hdate] at hdate'
    cases hdate'
    exact hclock i changedAt ha

/-- The version in force at a past instant stays in force at it. -/
theorem run_covers (hs : s.Sound) (h : Runs.run rateStep s bs = some s')
    {sourceId destinationId : Nat} {now : Time} (hpast : s.PastAt sourceId destinationId now)
    (hclock : ∀ i changedAt, .lock i changedAt ∈ bs → now < changedAt) {r : ConversionRate}
    (hr : r ∈ s.db.rateVersions sourceId destinationId)
    (hcovers : Covers ConversionRate.effectiveFrom ConversionRate.effectiveTo r now) :
    s'.Sound ∧ s'.db.programs = s.db.programs ∧
      ∃ r' ∈ s'.db.rateVersions sourceId destinationId, r.Kept r' ∧
        Covers ConversionRate.effectiveFrom ConversionRate.effectiveTo r' now := by
  have hI := Runs.run_invariant_of
    (C := fun _ a => ∀ i changedAt, a = .lock i changedAt → now < changedAt)
    (I := fun x => x.PastAt sourceId destinationId now ∧ x.Sound ∧
      x.db.programs = s.db.programs ∧ ∃ r' ∈ x.db.rateVersions sourceId destinationId, r.Kept r' ∧
        Covers ConversionRate.effectiveFrom ConversionRate.effectiveTo r' now)
    (fun x a x' hx hC hstep => ?_) ⟨hpast, hs, rfl, r, hr, .inl rfl, hcovers⟩
    (Runs.allSteps_of_forall fun a ha _ i changedAt heq =>
      hclock i changedAt (by rw [← heq]; exact ha)) h
  · exact hI.2
  · obtain ⟨hpast, hsound, hprograms, r₁, hr₁, hkept, hcov⟩ := hx
    have hstep := rateStep_inv hstep
    refine ⟨hpast.step hstep hC, hsound.step hstep, ?_⟩
    rcases hsound.rates_step hstep with heq |
      ⟨i, c, sourceId', destinationId', changedAt, _, -, hc, hlock, hdate, -, hadded, hprograms'⟩
    · rw [heq]
      exact ⟨hprograms, r₁, hr₁, hkept, hcov⟩
    · refine ⟨hprograms'.trans hprograms, ?_⟩
      obtain ⟨r₂, hr₂, hkept₂, hcov₂⟩ := hadded.covers hsound.rates hr₁ hcov (by
        rintro ⟨rfl, rfl⟩
        exact hpast i c changedAt hc hlock hdate)
      exact ⟨r₂, hr₂, hkept.trans hkept₂, hcov₂⟩

/-- A call whose clock reading is not later than the start of the open version
fails and changes nothing. -/
theorem write_refused (hs : s.Sound) {i : Nat} {c : RateCall} {sourceId destinationId : Nat}
    {changedAt : Time} (hc : s.calls[i]? = some c)
    (hlock : c.pc.lock? = some (sourceId, destinationId))
    (hdate : c.pc.changedAt? = some changedAt) {last : ConversionRate}
    (hlast : (s.db.rateVersions sourceId destinationId).getLast? = some last)
    (hearly : changedAt ≤ last.effectiveFrom) (h : rateStep s (.write i) = some s') :
    s'.db = s.db := by
  rcases hs.rates_step (rateStep_inv h) with heq |
    ⟨i', c', sourceId', destinationId', changedAt', _, ha, hc', hlock', hdate', -, hadded, -⟩
  · exact heq
  · cases ha
    rw [hc] at hc'
    cases hc'
    rw [hlock] at hlock'
    cases hlock'
    rw [hdate] at hdate'
    cases hdate'
    exact absurd (hadded.later last hlast) (not_lt.mpr hearly)

/-- For every route, in every state of every run of calls at once: the versions
are numbered 1..n, tile the time, exactly the last one is open, and each keeps
everything but an open end for good; a call that reads its clock too early
changes nothing; and from the first start on, `get_route` finds exactly one
version, and finds it again later for an instant that is past: one before every
clock reading still to come and of every call that holds the route's lock. -/
theorem rate_versions_tile (h₀ : s₀.Initial) (h : Runs.run rateStep s₀ as = some s)
    (sourceId destinationId : Nat) :
    (s.db.rateVersions sourceId destinationId).map ConversionRate.version =
      (List.range (s.db.rateVersions sourceId destinationId).length).map
        (fun (i : Nat) => (i : Int) + 1) ∧
    Tiles ConversionRate.effectiveFrom ConversionRate.effectiveTo
      (s.db.rateVersions sourceId destinationId) ∧
    (∀ r ∈ s.db.rateVersions sourceId destinationId,
      (r.effectiveTo = none ↔ (s.db.rateVersions sourceId destinationId).getLast? = some r) ∧
      ∀ bs s', Runs.run rateStep s bs = some s' →
        ∃ r' ∈ s'.db.rateVersions sourceId destinationId, r.Kept r') ∧
    (∀ (i : Nat) (c : RateCall) (changedAt : Time) (last : ConversionRate) (s' : RateSystem),
      s.calls[i]? = some c → c.pc.lock? = some (sourceId, destinationId) →
      c.pc.changedAt? = some changedAt →
      (s.db.rateVersions sourceId destinationId).getLast? = some last →
      changedAt ≤ last.effectiveFrom → rateStep s (.write i) = some s' → s'.db = s.db) ∧
    ∀ first rest, s.db.rateVersions sourceId destinationId = first :: rest →
      ∀ now, first.effectiveFrom ≤ now →
        ∃ r ∈ s.db.rateVersions sourceId destinationId,
          Covers ConversionRate.effectiveFrom ConversionRate.effectiveTo r now ∧
          (∀ y ∈ s.db.rateVersions sourceId destinationId,
            Covers ConversionRate.effectiveFrom ConversionRate.effectiveTo y now → y = r) ∧
          ∀ sourceCode destinationCode source destination,
            s.db.loadProgram sourceCode = .ok source → source.id = sourceId →
            s.db.loadProgram destinationCode = .ok destination → destination.id = destinationId →
            (∃ route, s.db.getRoute sourceCode destinationCode now = .ok route ∧
              route.rate = some (toRateRule r)) ∧
            ∀ bs s', Runs.run rateStep s bs = some s' → s.PastAt sourceId destinationId now →
              (∀ i changedAt, .lock i changedAt ∈ bs → now < changedAt) →
              ∃ r' route', r.Kept r' ∧
                s'.db.getRoute sourceCode destinationCode now = .ok route' ∧
                route'.rate = some (toRateRule r') := by
  have hs := run_rateSound h₀ h
  have hroute := hs.rates.routes sourceId destinationId
  refine ⟨hroute.numbered, hroute.tiles, ?_, ?_, ?_⟩
  · intro r hr
    refine ⟨hroute.tiles.open_iff hr, ?_⟩
    intro bs s' hbs
    obtain ⟨hrow, hon⟩ := mem_rateVersions.mp hr
    obtain ⟨r', hr', hkept⟩ := run_kept hs hbs hrow
    refine ⟨r', mem_rateVersions.mpr ⟨hr', ?_⟩, hkept⟩
    rcases hkept with rfl | ⟨-, _, rfl⟩
    · exact hon
    · exact hon
  · intro i c changedAt last s' hc hlock hdate hlast hearly hstep
    exact write_refused hs hc hlock hdate hlast hearly hstep
  · intro first rest hfirst now hnow
    have htiles := hroute.tiles
    rw [hfirst] at htiles
    obtain ⟨r, hr, hcovers⟩ := htiles.exists_covers hnow
    rw [← hfirst] at hr
    refine ⟨r, hr, hcovers, fun y hy hy' => hroute.tiles.covers_unique hy hr hy' hcovers, ?_⟩
    intro sourceCode destinationCode source destination hsource hsid hdest hdid
    refine ⟨getRoute_rate hroute hr hcovers hsource hsid hdest hdid, ?_⟩
    intro bs s' hbs hpast hclock
    obtain ⟨hs', hprograms, r', hr', hkept, hcovers'⟩ := run_covers hs hbs hpast hclock hr hcovers
    have hload : ∀ code, s'.db.loadProgram code = s.db.loadProgram code := by
      intro code
      simp only [Database.loadProgram, hprograms]
    obtain ⟨route', hroute', hrate'⟩ := getRoute_rate (hs'.rates.routes sourceId destinationId) hr'
      hcovers' (by rw [hload]; exact hsource) hsid (by rw [hload]; exact hdest) hdid
    exact ⟨r', route', hkept, hroute', hrate'⟩

end

/-! ## From the seeded database -/

def seededRates : RateSystem := ⟨seedDb, []⟩

theorem seededRates_initial : seededRates.Initial where
  rates := ratesSeeded_of_rows (by decide +kernel) (by decide +kernel) (by decide +kernel)
  calls := rfl

def sampleRate : NewRate := ⟨"NOVA_REWARDS", "SKYWARD_MILES", 3, 4, 1000, 1000, none⟩

def otherRate : NewRate := ⟨"NOVA_REWARDS", "STAYWELL_POINTS", 3, 4, 1000, 1000, none⟩

/-- Two calls at once, on two routes: the first one has read its clock at 100
and its route, the second one has read its clock at 200. -/
def datedCalls : List RateAction :=
  [.call sampleRate, .call otherRate, .lock 0 100, .lock 1 200, .load 0]

theorem rate_versions_tile_datedCalls :
    ∃ s, Runs.run rateStep seededRates (datedCalls ++ [.write 0]) = some s ∧
      Tiles ConversionRate.effectiveFrom ConversionRate.effectiveTo (s.db.rateVersions 1 3) ∧
      (s.db.rateVersions 1 3).map ConversionRate.version = [1, 2] := by
  have hany : (Runs.run rateStep seededRates (datedCalls ++ [.write 0])).any (fun s =>
      decide ((s.db.rateVersions 1 3).length = 2)) = true := by decide +kernel
  obtain ⟨s, hs, hlength⟩ := (Option.any_eq_true _ _).mp hany
  obtain ⟨hnumbered, htiles, -⟩ := rate_versions_tile seededRates_initial hs 1 3
  rw [of_decide_eq_true hlength] at hnumbered
  exact ⟨s, hs, htiles, hnumbered⟩

/-- The version number `get_route` finds. -/
def Database.versionAt? (db : Database) (sourceCode destinationCode : String) (now : Time) :
    Option Int :=
  match db.getRoute sourceCode destinationCode now with
  | .ok route => route.rate.map RateRule.version
  | .error _ => none

/-- The clock has read 200 already, but the version of instant 150 still changes
when the call that read 100 commits. -/
theorem past_instant_repriced :
    ∃ s s', Runs.run rateStep seededRates datedCalls = some s ∧
      rateStep s (.write 0) = some s' ∧
      (∃ c, s.calls[1]? = some c ∧ c.pc.changedAt? = some 200) ∧
      s.db.versionAt? "NOVA_REWARDS" "SKYWARD_MILES" 150 = some 1 ∧
      s'.db.versionAt? "NOVA_REWARDS" "SKYWARD_MILES" 150 = some 2 := by
  have hany : (Runs.run rateStep seededRates datedCalls).any (fun s =>
      (rateStep s (.write 0)).any fun s' =>
        (s.calls[1]?).any (fun c => decide (c.pc.changedAt? = some 200)) &&
        decide (s.db.versionAt? "NOVA_REWARDS" "SKYWARD_MILES" 150 = some 1) &&
        decide (s'.db.versionAt? "NOVA_REWARDS" "SKYWARD_MILES" 150 = some 2)) = true := by
    decide +kernel
  obtain ⟨s, hs, hany⟩ := (Option.any_eq_true _ _).mp hany
  obtain ⟨s', hs', hall⟩ := (Option.any_eq_true _ _).mp hany
  simp only [Bool.and_eq_true, decide_eq_true_eq] at hall
  obtain ⟨⟨hclock, hbefore⟩, hafter⟩ := hall
  obtain ⟨c, hc, hdate⟩ := (Option.any_eq_true _ _).mp hclock
  exact ⟨s, s', hs, hs', ⟨c, hc, of_decide_eq_true hdate⟩, hbefore, hafter⟩

end LoyaltyTransfer
