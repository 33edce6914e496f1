/-
# `LoyaltyTransfer.Tariffs` — what points cost while the service runs

Rates and bonuses are replaced under a running service, between any two steps of
any request.  `Routes` says how long a route stays as it was loaded when the
versions of its rate tile time and its bonuses are apart; `RateAdmin` and the
constraints of `transfer_bonuses` are what is to keep them so.

**Proved here.**

    a step touches rates, bonuses and programs only by a rate change      (`Step.tariffs`)
    in every reachable state at most one bonus is in force on a route,
    `valid_until` is exact, and no row of either table is altered         (`tariffs_exact`)
    until its `valid_until`, a debit uses the amounts a quote named, and
    refuses what the quote refused                                        (`quote_honoured`)
-/
import LoyaltyTransfer.RouteCache
import LoyaltyTransfer.Snapshots

namespace LoyaltyTransfer

open Transaction Timeline

/-! ## What touches the tariffs -/

/-- Two databases with the same programs, rates and bonuses. -/
structure SameTariffs (db db' : Database) : Prop where
  programs : db'.programs = db.programs
  conversionRates : db'.conversionRates = db.conversionRates
  transferBonuses : db'.transferBonuses = db.transferBonuses

theorem SameTariffs.refl (db : Database) : SameTariffs db db := ⟨rfl, rfl, rfl⟩

theorem SameTariffs.trans {a b c : Database} (h : SameTariffs a b) (h' : SameTariffs b c) :
    SameTariffs a c where
  programs := h'.programs.trans h.programs
  conversionRates := h'.conversionRates.trans h.conversionRates
  transferBonuses := h'.transferBonuses.trans h.transferBonuses

section

variable {db db' : Database}

/-- `get_route` reads nothing else. -/
theorem SameTariffs.getRoute (h : SameTariffs db db') (source destination : String) (now : Time) :
    db'.getRoute source destination now = db.getRoute source destination now := by
  simp only [Database.getRoute, Database.loadProgram, h.programs, h.conversionRates,
    h.transferBonuses]

variable (hn : (db.accounts.map Account.id).Nodup)

include hn

theorem settleTransfer_tariffs {wall : Time} {t : Transfer} {confirmationId reason : String}
    {metadata : List (String × Json.Value)} {u : Unit}
    (h : (settleTransfer wall t confirmationId reason metadata).run db = .ok (u, db')) :
    SameTariffs db db' := by
  obtain ⟨_, -, -, -, -, -, rfl⟩ := (settleTransfer_ok hn).mp h
  exact ⟨rfl, rfl, rfl⟩

theorem reverseTransfer_tariffs {wall : Time} {t : Transfer} {code : TransferFailureCode}
    {message reason : String} {metadata : List (String × Json.Value)} {u : Unit}
    (h : (reverseTransfer wall t code message reason metadata).run db = .ok (u, db')) :
    SameTariffs db db' := by
  obtain ⟨_, _, -, -, -, -, -, -, rfl⟩ := (reverseTransfer_ok hn).mp h
  exact ⟨rfl, rfl, rfl⟩

theorem applyPartnerOutcome_tariffs {verificationDelay now wall : Time} {transferId : String}
    {result : PartnerCreditResult} {r : TransferStatus}
    (h : (applyPartnerOutcome verificationDelay now wall transferId result).run db =
      .ok (r, db')) : SameTariffs db db' := by
  obtain ⟨t, -, -, ⟨-, -, rfl⟩ | ⟨-, hrun⟩⟩ := applyPartnerOutcome_inv h
  · exact SameTariffs.refl _
  · cases hrun with
    | settled _ _ hrun => exact settleTransfer_tariffs hn hrun
    | rejected _ hrun => exact reverseTransfer_tariffs hn hrun
    | unavailable _ hrun => exact reverseTransfer_tariffs hn hrun
    | parked => exact ⟨rfl, rfl, rfl⟩

theorem reverseInterrupted_tariffs {wall : Time} {transferId : String} {r : ReconcileResult}
    (h : (reverseInterrupted wall transferId).run db = .ok (r, db')) : SameTariffs db db' := by
  obtain ⟨t, -, -, ⟨-, -, rfl⟩ | ⟨-, -, _, _, _, hrun⟩⟩ := reverseInterrupted_inv h
  · exact SameTariffs.refl _
  · exact reverseTransfer_tariffs hn hrun

theorem applyStatus_tariffs {policy : ReconciliationPolicy} {now wall : Time}
    {transferId : String} {answer : PartnerStatusResult} {r : ReconcileResult}
    (h : (applyStatus policy now wall transferId answer).run db = .ok (r, db')) :
    SameTariffs db db' := by
  obtain ⟨t, -, -, ⟨-, -, rfl⟩ | ⟨-, hrun⟩⟩ := applyStatus_inv h
  · exact SameTariffs.refl _
  · cases hrun with
    | settled _ _ hrun => exact settleTransfer_tariffs hn hrun
    | reversed _ _ hrun => exact reverseTransfer_tariffs hn hrun
    | early => exact ⟨rfl, rfl, rfl⟩
    | counted => exact ⟨rfl, rfl, rfl⟩
    | exhausted => exact ⟨rfl, rfl, rfl⟩

end

section

variable {cfg : Config} {s s' : State} {a : Action} {st st' : Store}

theorem RequestMove.tariffs {i : Nat} {r : Request} {act : RequestAction} {pc : RequestPc}
    (hn : (st.db.accounts.map Account.id).Nodup) (h : RequestMove cfg i r st act st' pc) :
    SameTariffs st.db st'.db := by
  cases h with
  | debited _ hrun =>
      obtain ⟨_, _, _, -, -, -, -, -, rfl⟩ := openTransfer_change hn hrun
      exact ⟨rfl, rfl, rfl⟩
  | submitted _ hrun =>
      obtain ⟨_, _, -, -, -, -, rfl⟩ := markSubmitted_change hrun
      exact ⟨rfl, rfl, rfl⟩
  | recorded _ hrun => exact applyPartnerOutcome_tariffs hn hrun
  | found _ hrun =>
      obtain ⟨-, -, -, rfl⟩ := findByIdempotencyKey_ok.mp hrun
      exact SameTariffs.refl _
  | _ => exact SameTariffs.refl _

theorem ReconcileMove.tariffs {p : Reconcile} {act : ReconcileAction} {pc : ReconcilePc}
    (hn : (st.db.accounts.map Account.id).Nodup) (h : ReconcileMove cfg p st act st' pc) :
    SameTariffs st.db st'.db := by
  cases h with
  | snapshotted _ hrun =>
      obtain ⟨rfl, -⟩ := snapshot_ok hrun
      exact SameTariffs.refl _
  | reversed _ hrun => exact reverseInterrupted_tariffs hn hrun
  | applied _ hrun => exact applyStatus_tariffs hn hrun
  | _ => exact SameTariffs.refl _

/-- Rates, bonuses and programs are as they were, or the step is a rate change. -/
theorem Step.tariffs (hn : (s.store.db.accounts.map Account.id).Nodup) (h : Step cfg s a s') :
    SameTariffs s.store.db s'.store.db ∨
      ∃ change, a = .rates change ∧ s'.store.db = change.apply s.store.db := by
  cases h with
  | request _ hm => exact .inl (hm.tariffs hn)
  | reconcile _ hm => exact .inl (hm.tariffs hn)
  | claimDue hrun =>
      obtain ⟨-, -, rfl⟩ := claimDue_ok.mp hrun
      exact .inl ⟨rfl, rfl, rfl⟩
  | rates => exact .inr ⟨_, rfl, rfl⟩
  | clock => exact .inl ⟨rfl, rfl, rfl⟩
  | _ => exact .inl (SameTariffs.refl _)

end

/-! ## Bonuses -/

/-- One bonus more, with all that `create_bonus` and the table ask of it. -/
structure BonusAdded (db : Database) (b : TransferBonus) (db' : Database) : Prop where
  added : db' = { db with transferBonuses := db.transferBonuses ++ [b] }
  bps : 0 < b.bonusBps ∧ b.bonusBps ≤ 10000
  programs : b.sourceProgramId ≠ b.destinationProgramId
  window : b.startsAt < b.endsAt
  apart : ∀ x ∈ db.transferBonuses, x.onRoute b.sourceProgramId b.destinationProgramId = true →
    x.startsAt < b.endsAt → ¬ b.startsAt < x.endsAt

/-- The bonuses of the table: each valid by itself, those of a route apart. -/
structure BonusesSound (db : Database) : Prop where
  apart : BonusesApart db
  bps : ∀ b ∈ db.transferBonuses, 0 < b.bonusBps ∧ b.bonusBps ≤ 10000
  programs : ∀ b ∈ db.transferBonuses, b.sourceProgramId ≠ b.destinationProgramId
  window : ∀ b ∈ db.transferBonuses, b.startsAt < b.endsAt

section

variable {db db' : Database} {b : TransferBonus}

theorem createBonus_added {newBonus : NewBonus} {now : Time}
    (h : (createBonus newBonus now).run db = .ok (b, db')) : BonusAdded db b db' := by
  simp only [createBonus, insertBonus, Tx.bind_ok, Tx.get_ok, Tx.ofExcept_ok, Tx.failIf_ok,
    Tx.set_ok, Tx.pure_ok] at h
  obtain ⟨_, _, ⟨_, _, e₁⟩, _, _, ⟨_, e₂⟩, _, _, ⟨_, e₃⟩, _, _, e₄, _, _, ⟨_, _, e₅⟩, _, _,
    ⟨_, _, e₆⟩, _, _, ⟨_, e₇⟩, _, _, ⟨_, _, e₈, _, _, ⟨hbps, e₉⟩, _, _, ⟨hprograms, e₁₀⟩, _, _,
    ⟨hwindow, e₁₁⟩, _, _, ⟨hfree, e₁₂⟩, e₁₃⟩, e₁₄⟩ := h
  cases e₁; cases e₂; cases e₃; cases e₄; cases e₅; cases e₆; cases e₇
  cases e₈; cases e₉; cases e₁₀; cases e₁₁; cases e₁₂; cases e₁₃; cases e₁₄
  refine ⟨rfl, not_not.mp hbps, hprograms, not_le.mp hwindow, ?_⟩
  intro x hx hon hstart hend
  exact hfree ⟨x, hx, hon, hstart, hend⟩

theorem BonusAdded.sound (h : BonusAdded db b db') (hs : BonusesSound db) : BonusesSound db' := by
  have hrows : ∀ {p : TransferBonus → Prop}, (∀ x ∈ db.transferBonuses, p x) → p b →
      ∀ x ∈ db'.transferBonuses, p x := by
    intro p hold hnew x hx
    rw [h.added] at hx
    rcases List.mem_append.mp hx with hx | hx
    · exact hold x hx
    · rw [List.mem_singleton.mp hx]
      exact hnew
  refine ⟨?_, hrows hs.bps h.bps, hrows hs.programs h.programs, hrows hs.window h.window⟩
  intro x hx y hy hsource hdestination hxy hyx
  rw [h.added] at hx hy
  rcases List.mem_append.mp hx with hxold | hxnew
  · rcases List.mem_append.mp hy with hyold | hynew
    · exact hs.apart x hxold y hyold hsource hdestination hxy hyx
    · obtain rfl := List.mem_singleton.mp hynew
      exact absurd hyx (h.apart x hxold (decide_eq_true ⟨hsource, hdestination⟩) hxy)
  · obtain rfl := List.mem_singleton.mp hxnew
    rcases List.mem_append.mp hy with hyold | hynew
    · exact absurd hxy (h.apart y hyold (decide_eq_true ⟨hsource.symm, hdestination.symm⟩) hyx)
    · exact (List.mem_singleton.mp hynew).symm

theorem BonusesSound.congr (h : BonusesSound db)
    (hsame : db'.transferBonuses = db.transferBonuses) :
    BonusesSound db' := by
  refine ⟨?_, ?_, ?_, ?_⟩
  · rw [BonusesApart, hsame]
    exact h.apart
  · rw [hsame]
    exact h.bps
  · rw [hsame]
    exact h.programs
  · rw [hsame]
    exact h.window

theorem BonusesSound.windowsApart (h : BonusesSound db) (sourceId destinationId : Nat) :
    WindowsApart (db.bonusesOn sourceId destinationId) where
  nonempty := fun b hb => h.window b (List.mem_filter.mp hb).1
  apart := by
    intro x hx y hy
    obtain ⟨hxrow, hxon⟩ := List.mem_filter.mp hx
    obtain ⟨hyrow, hyon⟩ := List.mem_filter.mp hy
    obtain ⟨hxs, hxd⟩ := of_decide_eq_true hxon
    obtain ⟨hys, hyd⟩ := of_decide_eq_true hyon
    exact h.apart x hxrow y hyrow (hxs.trans hys.symm) (hxd.trans hyd.symm)

end

/-! ## The tariffs along a run -/

structure TariffsSound (db : Database) : Prop where
  rates : RatesSound db
  bonuses : BonusesSound db

section

variable {db db' : Database}

theorem RatesSound.congr (h : RatesSound db) (hsame : db'.conversionRates = db.conversionRates) :
    RatesSound db' := by
  refine ⟨?_, ?_⟩
  · rw [hsame]
    exact h.ids
  · intro sourceId destinationId
    rw [Database.rateVersions, hsame]
    exact h.routes sourceId destinationId

theorem SameTariffs.sound (h : SameTariffs db db') (hs : TariffsSound db) : TariffsSound db' :=
  ⟨hs.rates.congr h.conversionRates, hs.bonuses.congr h.transferBonuses⟩

theorem createRateVersion_bonuses {newRate : NewRate} {changedAt : Time} {r : ConversionRate}
    (h : (createRateVersion newRate changedAt).run db = .ok (r, db')) :
    db'.transferBonuses = db.transferBonuses := by
  simp only [createRateVersion, Tx.bind_ok, Tx.get_ok, Tx.ofExcept_ok, Tx.pure_ok] at h
  obtain ⟨_, _, ⟨_, -, e₁⟩, _, _, e₂, source, _, ⟨_, -, e₃⟩, destination, _, ⟨_, -, e₄⟩, _, _,
    hclose, _, _, hins, e₅⟩ := h
  cases e₁; cases e₂; cases e₃; cases e₄; cases e₅
  obtain ⟨-, rfl⟩ := insertRate_ok hins
  rcases closeCurrent_ok.mp hclose with ⟨-, rfl⟩ | ⟨current, -, -, rfl⟩
  · rfl
  · rfl

/-- What a rate change can do to the two tables. -/
inductive Retariffed (db db' : Database) : Prop
  | same (h : SameTariffs db db')
  | version {sourceId destinationId : Nat} {changedAt : Time} {created : ConversionRate}
      (h : VersionAdded db sourceId destinationId changedAt created db')
      (hbonuses : db'.transferBonuses = db.transferBonuses)
  | bonus {b : TransferBonus} (h : BonusAdded db b db')

theorem RateChange.retariffed (hs : TariffsSound db) (change : RateChange) :
    Retariffed db (change.apply db) := by
  rcases change.apply_cases db with hsame | ⟨_, _, _, hrun⟩ | ⟨_, _, _, hrun⟩
  · rw [hsame]
    exact .same (SameTariffs.refl db)
  · obtain ⟨_, _, hadded⟩ := createRateVersion_added hs.rates hrun
    exact .version hadded (createRateVersion_bonuses hrun)
  · exact .bonus (createBonus_added hrun)

theorem Retariffed.sound (h : Retariffed db db') (hs : TariffsSound db) : TariffsSound db' := by
  cases h with
  | same h => exact h.sound hs
  | version h hbonuses => exact ⟨h.sound hs.rates, hs.bonuses.congr hbonuses⟩
  | bonus h => exact ⟨hs.rates.congr (by rw [h.added]), h.sound hs.bonuses⟩

/-- Bonuses are only added, and a rate row is altered only by the end of the open
version. -/
structure TariffsKept (db db' : Database) : Prop where
  bonuses : db.transferBonuses <+: db'.transferBonuses
  rates : ∀ r ∈ db.conversionRates, ∃ r' ∈ db'.conversionRates, r.Kept r'

theorem TariffsKept.refl (db : Database) : TariffsKept db db :=
  ⟨List.prefix_rfl, fun r hr => ⟨r, hr, .inl rfl⟩⟩

theorem TariffsKept.trans {a b c : Database} (h : TariffsKept a b) (h' : TariffsKept b c) :
    TariffsKept a c where
  bonuses := h.bonuses.trans h'.bonuses
  rates := by
    intro r hr
    obtain ⟨r', hr', hkept⟩ := h.rates r hr
    obtain ⟨r'', hr'', hkept'⟩ := h'.rates r' hr'
    exact ⟨r'', hr'', hkept.trans hkept'⟩

theorem Retariffed.kept (h : Retariffed db db') : TariffsKept db db' := by
  cases h with
  | same h =>
      refine ⟨by rw [h.transferBonuses], ?_⟩
      intro r hr
      exact ⟨r, by rw [h.conversionRates]; exact hr, .inl rfl⟩
  | version h hbonuses => exact ⟨by rw [hbonuses], fun r hr => h.kept hr⟩
  | bonus h =>
      rw [h.added]
      exact ⟨List.prefix_append _ _, fun r hr => ⟨r, hr, .inl rfl⟩⟩

end

section

variable {cfg : Config} {s₀ s s' : State} {as bs : List Action} {a : Action}

theorem Step.retariffed (hn : (s.store.db.accounts.map Account.id).Nodup)
    (hs : TariffsSound s.store.db) (h : Step cfg s a s') :
    Retariffed s.store.db s'.store.db := by
  rcases h.tariffs hn with hsame | ⟨change, -, hdb⟩
  · exact .same hsame
  · rw [hdb]
    exact change.retariffed hs

/-- Along a run from any sound state: the tables stay sound and keep their rows. -/
theorem run_tariffs {db₀ : Database} (hseeded : Seeded db₀) (hsound : Sound db₀ s.store.db)
    (hs : TariffsSound s.store.db) (h : Runs.run (step cfg) s bs = some s') :
    TariffsSound s'.store.db ∧ TariffsKept s.store.db s'.store.db := by
  have hI := Runs.run_invariant
    (I := fun x => Sound db₀ x.store.db ∧ TariffsSound x.store.db ∧
      TariffsKept s.store.db x.store.db)
    (fun x a x' hI hstep => ?_) ⟨hsound, hs, TariffsKept.refl s.store.db⟩ h
  · exact hI.2
  · obtain ⟨hx, htariffs, hkept⟩ := hI
    have hmove := (step_inv hstep).retariffed (hx.accountIds hseeded) htariffs
    exact ⟨hx.step hseeded hstep, hmove.sound htariffs, hkept.trans hmove.kept⟩

/-- In every reachable state a route has at most one bonus at any instant; a route
loaded once its first rate has begun is what `get_route` finds at every later
instant before its `valid_until`, and at its `valid_until` the rate or the bonus is
another one; and whatever runs on alters no row of either table but for the end of
an open rate. -/
theorem tariffs_exact (h₀ : Initial s₀) (hs : TariffsSound s₀.store.db)
    (h : Runs.run (step cfg) s₀ as = some s) :
    (∀ sourceId destinationId now, ∀ x ∈ s.store.db.bonusesOn sourceId destinationId,
      ∀ y ∈ s.store.db.bonusesOn sourceId destinationId,
        x.inForce now = true → y.inForce now = true → x = y) ∧
    (∀ sourceCode destinationCode asked route,
      s.store.db.getRoute sourceCode destinationCode asked = .ok route →
      (∀ first, (s.store.db.rateVersions route.source.id route.destination.id).head? = some first →
        first.effectiveFrom ≤ asked) →
      (∀ later, asked ≤ later → (∀ v, route.validUntil = some v → later < v) →
        s.store.db.getRoute sourceCode destinationCode later = .ok route) ∧
      ∀ v, route.validUntil = some v → asked < v ∧
        ∃ route', s.store.db.getRoute sourceCode destinationCode v = .ok route' ∧
          (route'.rate ≠ route.rate ∨ route'.bonus ≠ route.bonus)) ∧
    ∀ bs s', Runs.run (step cfg) s bs = some s' →
      s.store.db.transferBonuses <+: s'.store.db.transferBonuses ∧
      ∀ r ∈ s.store.db.conversionRates, ∃ r' ∈ s'.store.db.conversionRates, r.Kept r' := by
  obtain ⟨htariffs, -⟩ := run_tariffs h₀.seeded h₀.seeded.sound hs h
  refine ⟨?_, ?_, ?_⟩
  · intro sourceId destinationId now x hx y hy
    exact htariffs.bonuses.apart.unique hx hy
  · intro sourceCode destinationCode asked route hroute hstarted
    have hversioned := htariffs.rates.routes route.source.id route.destination.id
    refine ⟨?_, ?_⟩
    · intro later hle hvalid
      exact getRoute_stable hroute hversioned hstarted hle hvalid
    · intro v hv
      obtain ⟨source, destination, hsource, hdestination, rfl⟩ := getRoute_iff.mp hroute
      obtain ⟨hlt, hdiffers⟩ :=
        routeAt_boundary (htariffs.bonuses.windowsApart _ _) (earliest_mem hv)
      exact ⟨hlt, _, getRoute_iff.mpr ⟨source, destination, hsource, hdestination, rfl⟩, hdiffers⟩
  · intro bs s' h'
    obtain ⟨-, hkept⟩ := run_tariffs h₀.seeded (run_sound h₀ h) htariffs h'
    exact ⟨hkept.bonuses, hkept.rates⟩

/-! ## A quote and the debit after it -/

def QuoteRequest.toTransfer (body : QuoteRequest) : TransferRequest :=
  ⟨body.sourceProgram, body.destinationProgram, body.sourcePoints⟩

/-- A run without rate changes keeps the tariffs. -/
theorem run_sameTariffs {db₀ : Database} (hseeded : Seeded db₀) (hsound : Sound db₀ s.store.db)
    (hrates : ∀ a ∈ bs, ∀ change, a ≠ .rates change)
    (h : Runs.run (step cfg) s bs = some s') : SameTariffs s.store.db s'.store.db := by
  have hI := Runs.run_invariant_of (C := fun _ a => ∀ change, a ≠ Action.rates change)
    (I := fun x => Sound db₀ x.store.db ∧ SameTariffs s.store.db x.store.db)
    (fun x a x' hI hnot hstep => ?_) ⟨hsound, SameTariffs.refl s.store.db⟩
    (Runs.allSteps_of_forall fun a ha _ => hrates a ha) h
  · exact hI.2
  · obtain ⟨hx, hsame⟩ := hI
    rcases (step_inv hstep).tariffs (hx.accountIds hseeded) with hstep' | ⟨change, heq, -⟩
    · exact ⟨hx.step hseeded hstep, hsame.trans hstep'⟩
    · exact absurd heq (hnot change)

/-- The bonus of a route loaded at `q` applies at `now` as it did at `q`. -/
theorem routeAt_applies {db : Database} {source destination : ProgramRef} {q now : Time}
    (hle : q ≤ now)
    (hvalid : ∀ v, (db.routeAt source destination q).validUntil = some v → now < v) :
    ((db.routeAt source destination q).bonus.filter fun b => b.appliesAt now) =
      (db.routeAt source destination q).bonus.filter fun b => b.appliesAt q := by
  cases hbonus : (db.routeAt source destination q).bonus with
  | none => rfl
  | some rule =>
      obtain ⟨b, hb, rfl⟩ := Option.map_eq_some_iff.mp hbonus
      obtain ⟨hstart, hend⟩ := bonusAt_lt_endsAt hb
      have hlast : now < b.endsAt := by
        refine lt_of_lt_earliest hvalid (mem_boundaries.mpr (.inr (.inl ?_)))
        rw [hb]
        rfl
      have happlies : ∀ t, b.startsAt ≤ t → t < b.endsAt → b.toRule.appliesAt t = true := by
        intro t hs he
        exact bonus_inForce_iff.mpr ⟨hs, he⟩
      simp only [Option.filter_some, happlies q hstart hend,
        happlies now (hstart.trans hle) hlast]

end

/-- What a quote and a debit both compute. -/
def pricing (maxPoints : Option Int) (db : Database) (body : QuoteRequest) (now : Time) :
    Except DomainError Conversion := do
  ensureDifferentPrograms body.sourceProgram body.destinationProgram
  ensureWithinPlatformLimit body.sourcePoints maxPoints
  let route ← db.getRoute body.sourceProgram body.destinationProgram now
  let rate ← ensureRouteUsable route
  calculateConversion rate body.sourcePoints route.bonus now

section

variable {qcfg : QuoteConfig} {db db' : Database} {body : QuoteRequest} {q now : Time}

/-- A quote from PostgreSQL is the pricing with two times put to it. -/
theorem quote_eq_pricing :
    quote qcfg db.getRoute body now =
      (pricing qcfg.maxTransferPoints db body now).map fun conversion =>
        ⟨body.sourceProgram, body.destinationProgram, conversion, now, now + qcfg.quoteTtl⟩ := by
  simp only [quote, checkQuote, priceQuote, pricing, bind_assoc]
  cases ensureDifferentPrograms body.sourceProgram body.destinationProgram with
  | error e => rfl
  | ok u =>
      cases ensureWithinPlatformLimit body.sourcePoints qcfg.maxTransferPoints with
      | error e => rfl
      | ok u =>
          cases db.getRoute body.sourceProgram body.destinationProgram now with
          | error e => rfl
          | ok route =>
              cases hrate : ensureRouteUsable route with
              | error e => simp only [bind, Except.bind, hrate, Except.map]
              | ok rate =>
                  cases hconv : calculateConversion rate body.sourcePoints route.bonus now with
                  | error e => simp only [bind, Except.bind, hrate, hconv, Except.map]
                  | ok c =>
                      simp only [bind, Except.bind, hrate, hconv, Except.map, pure, Except.pure]

/-- A debit raises what the pricing refuses. -/
theorem openTransfer_refused {maxPoints : Option Int} {e : DomainError}
    (h : pricing maxPoints db body now = .error e) (createdAt : Time)
    (transferId userId key : String) :
    (openTransfer maxPoints now createdAt transferId userId body.toTransfer key).run db =
      .error (.domain e) := by
  simp only [pricing, bind, Except.bind] at h
  simp only [openTransfer, QuoteRequest.toTransfer]
  cases hdiff : ensureDifferentPrograms body.sourceProgram body.destinationProgram with
  | error e' =>
      rw [hdiff] at h
      cases h
      exact Tx.bind_error.mpr (.inl rfl)
  | ok u =>
      rw [hdiff] at h
      refine Tx.bind_error.mpr (.inr ⟨(), db, rfl, ?_⟩)
      cases hlimit : ensureWithinPlatformLimit body.sourcePoints maxPoints with
      | error e' =>
          rw [hlimit] at h
          cases h
          exact Tx.bind_error.mpr (.inl rfl)
      | ok u =>
          rw [hlimit] at h
          refine Tx.bind_error.mpr (.inr ⟨(), db, rfl, ?_⟩)
          refine Tx.bind_error.mpr (.inl (Tx.bind_error.mpr (.inr ⟨db, db, rfl, ?_⟩)))
          cases hroute : db.getRoute body.sourceProgram body.destinationProgram now with
          | error e' =>
              rw [hroute] at h
              cases h
              exact Tx.bind_error.mpr (.inl rfl)
          | ok route =>
              rw [hroute] at h
              refine Tx.bind_error.mpr (.inr ⟨route, db, rfl, ?_⟩)
              cases hrate : ensureRouteUsable route with
              | error e' =>
                  simp only [hrate] at h
                  cases h
                  exact Tx.bind_error.mpr (.inl rfl)
              | ok rate =>
                  simp only [hrate] at h
                  refine Tx.bind_error.mpr (.inr ⟨rate, db, rfl, ?_⟩)
                  refine Tx.bind_error.mpr (.inl ?_)
                  rw [h]
                  rfl

/-- A program that is not found is not found at any time. -/
theorem getRoute_error_later {sourceCode destinationCode : String} {e : DomainError}
    (h : db.getRoute sourceCode destinationCode q = .error e) (now : Time) :
    db.getRoute sourceCode destinationCode now = .error e := by
  simp only [Database.getRoute, bind, Except.bind] at h ⊢
  cases hsource : db.loadProgram sourceCode with
  | error e' =>
      rw [hsource] at h
      exact h
  | ok source =>
      cases hdestination : db.loadProgram destinationCode with
      | error e' =>
          rw [hsource, hdestination] at h
          exact h
      | ok destination =>
          rw [hsource, hdestination] at h
          cases h

/-- Until the `valid_until` of its route, the pricing is what it was. -/
theorem pricing_stable {maxPoints : Option Int} (hs : TariffsSound db) (hle : q ≤ now)
    (hroute : ∀ route, db.getRoute body.sourceProgram body.destinationProgram q = .ok route →
      (∀ first, (db.rateVersions route.source.id route.destination.id).head? = some first →
        first.effectiveFrom ≤ q) ∧ ∀ v, route.validUntil = some v → now < v) :
    pricing maxPoints db body now = pricing maxPoints db body q := by
  simp only [pricing]
  cases hq : db.getRoute body.sourceProgram body.destinationProgram q with
  | error e =>
      rw [getRoute_error_later hq now]
      rfl
  | ok route =>
      obtain ⟨hstarted, hvalid⟩ := hroute route hq
      rw [getRoute_stable hq (hs.rates.routes _ _) hstarted hle hvalid]
      obtain ⟨source, destination, -, -, rfl⟩ := getRoute_iff.mp hq
      have hconversion : ∀ rate, calculateConversion rate body.sourcePoints
          (db.routeAt source destination q).bonus now = calculateConversion rate body.sourcePoints
            (db.routeAt source destination q).bonus q := by
        intro rate
        simp only [calculateConversion, routeAt_applies hle hvalid]
      simp only [bind, Except.bind, hconversion]

/-- A debit that commits stored the pricing. -/
theorem pricing_of_open (hn : (db.accounts.map Account.id).Nodup) {maxPoints : Option Int}
    {createdAt : Time} {transferId userId key : String} {d : DebitedTransfer}
    (h : (openTransfer maxPoints now createdAt transferId userId body.toTransfer key).run db =
      .ok (d, db')) :
    ∃ c t, pricing maxPoints db body now = .ok c ∧ db'.transfer? transferId = some t ∧
      t.sourcePoints = c.sourcePoints ∧ t.basePoints = c.basePoints ∧
      t.bonusPoints = c.bonusPoints ∧ t.destinationPoints = c.destinationPoints ∧
      t.rateSnapshot = c.snapshot ∧ d.destinationPoints = c.destinationPoints := by
  obtain ⟨hdiff, hlimit, -⟩ := openTransfer_ok h
  obtain ⟨terms, t, events, hp, rfl, rfl, ho, -, rfl⟩ := openTransfer_change hn h
  refine ⟨terms.conversion,
    (terms.transfer transferId userId key createdAt).movedTo .sourceDebited now, ?_, ?_, rfl, rfl,
    rfl, rfl, rfl, rfl⟩
  · have hroute := hp.route
    have hconversion := hp.conversion
    simp only [QuoteRequest.toTransfer] at hdiff hlimit hroute hconversion
    simp only [pricing, hdiff, hlimit, hroute, hp.rate, hconversion, bind, Except.bind]
  · have hfresh : db.transfers.find? (fun x => decide (Transfer.id x = transferId)) = none := by
      refine List.find?_eq_none.mpr ?_
      intro x hx
      have hne : x.id ≠ transferId := ho.insertable.id x hx
      simpa using hne
    show (db.transfers ++ [_]).find? _ = _
    rw [List.find?_append, hfresh]
    simp [DebitTerms.transfer, Transfer.movedTo]

end

/-- A quote from PostgreSQL in a reachable state, at an instant at which the route's
first rate has begun, and a debit of the same amount on the same route before the quoted
route's `valid_until`, with any steps of the service but rate changes in between: what
the quote refused, the debit refuses with the same problem; and a debit that commits
moves the quoted amounts. -/
theorem quote_honoured {cfg : Config} {qcfg : QuoteConfig} {s₀ s s' : State} {as bs : List Action}
    {body : QuoteRequest} {q now : Time} (h₀ : Initial s₀) (hs : TariffsSound s₀.store.db)
    (h : Runs.run (step cfg) s₀ as = some s) (h' : Runs.run (step cfg) s bs = some s')
    (hrates : ∀ a ∈ bs, ∀ change, a ≠ .rates change) (hle : q ≤ now)
    (hroute : ∀ route,
      s.store.db.getRoute body.sourceProgram body.destinationProgram q = .ok route →
      (∀ first, (s.store.db.rateVersions route.source.id route.destination.id).head? = some first →
        first.effectiveFrom ≤ q) ∧ ∀ v, route.validUntil = some v → now < v)
    (createdAt : Time) (transferId userId key : String) :
    (∀ e, quote qcfg s.store.db.getRoute body q = .error e →
      (openTransfer qcfg.maxTransferPoints now createdAt transferId userId body.toTransfer
        key).run s'.store.db = .error (.domain e)) ∧
    ∀ quoted d db', quote qcfg s.store.db.getRoute body q = .ok quoted →
      (openTransfer qcfg.maxTransferPoints now createdAt transferId userId body.toTransfer
        key).run s'.store.db = .ok (d, db') →
      ∃ t, db'.transfer? transferId = some t ∧
        t.sourcePoints = quoted.conversion.sourcePoints ∧
        t.basePoints = quoted.conversion.basePoints ∧
        t.bonusPoints = quoted.conversion.bonusPoints ∧
        t.destinationPoints = quoted.conversion.destinationPoints ∧
        t.rateSnapshot = quoted.conversion.snapshot ∧
        d.destinationPoints = quoted.conversion.destinationPoints := by
  have hsound := run_sound h₀ h
  obtain ⟨htariffs, -⟩ := run_tariffs h₀.seeded h₀.seeded.sound hs h
  have hsame := run_sameTariffs h₀.seeded hsound hrates h'
  have hpricing : pricing qcfg.maxTransferPoints s'.store.db body now =
      pricing qcfg.maxTransferPoints s.store.db body q := by
    rw [← pricing_stable htariffs hle hroute]
    simp only [pricing, hsame.getRoute]
  rw [quote_eq_pricing]
  cases hprice : pricing qcfg.maxTransferPoints s.store.db body q with
  | error e =>
      refine ⟨?_, ?_⟩
      · intro e' he
        cases he
        exact openTransfer_refused (hpricing.trans hprice) createdAt transferId userId key
      · intro quoted d db' hquote
        cases hquote
  | ok c =>
      refine ⟨?_, ?_⟩
      · intro e' he
        cases he
      · intro quoted d db' hquote hopen
        cases hquote
        have hn := (run_sound h₀ (Runs.run_append.mpr ⟨s, h, h'⟩)).accountIds h₀.seeded
        obtain ⟨c', t, hc, ht, hsource, hbase, hbonus, hdestination, hsnapshot, hd⟩ :=
          pricing_of_open hn hopen
        obtain rfl := Except.ok.inj (hc.symm.trans (hpricing.trans hprice))
        exact ⟨t, ht, hsource, hbase, hbonus, hdestination, hsnapshot, hd⟩

theorem freshState_tariffs : TariffsSound freshState.store.db where
  rates := seededRates_initial.rates.sound
  bonuses := ⟨by unfold BonusesApart; decide +kernel, by decide +kernel, by decide +kernel,
    by decide +kernel⟩

theorem tariffs_exact_repricedRun :
    ∃ s, Runs.run (step sampleConfig) freshState repricedRun = some s ∧
      ∀ sourceId destinationId now, ∀ x ∈ s.store.db.bonusesOn sourceId destinationId,
        ∀ y ∈ s.store.db.bonusesOn sourceId destinationId,
          x.inForce now = true → y.inForce now = true → x = y := by
  obtain ⟨s, hs⟩ := Option.isSome_iff_exists.mp (show (Runs.run (step sampleConfig) freshState
    repricedRun).isSome = true by decide +kernel)
  exact ⟨s, hs, (tariffs_exact freshState_initial freshState_tariffs hs).1⟩

theorem exists_ok {ε α : Type} {x : Except ε α} (h : x.isOk = true) : ∃ a, x = .ok a := by
  cases x with
  | error e => cases h
  | ok a => exact ⟨a, rfl⟩

/-- A quote at 5 and, after a request has claimed its key, the debit at 6. -/
theorem quote_honoured_admission :
    ∃ s quoted d db', Runs.run (step sampleConfig) freshState
        (admission 0 "user_alice" "key-1" sampleBody 5) = some s ∧
      quote sampleQuotes freshState.store.db.getRoute ⟨"NOVA_REWARDS", "SKYWARD_MILES", 1000⟩ 5 =
        .ok quoted ∧
      (openTransfer sampleQuotes.maxTransferPoints 6 6 sampleTransferId "user_alice" sampleBody
        "key-1").run s.store.db = .ok (d, db') ∧
      d.destinationPoints = quoted.conversion.destinationPoints := by
  have hany : (Runs.run (step sampleConfig) freshState
      (admission 0 "user_alice" "key-1" sampleBody 5)).any (fun s =>
        ((openTransfer sampleQuotes.maxTransferPoints 6 6 sampleTransferId "user_alice" sampleBody
          "key-1").run s.store.db).isOk) = true := by
    decide +kernel
  have hquote : (quote sampleQuotes freshState.store.db.getRoute
      ⟨"NOVA_REWARDS", "SKYWARD_MILES", 1000⟩ 5).isOk = true := by
    decide +kernel
  have hvalid : (freshState.store.db.getRoute "NOVA_REWARDS" "SKYWARD_MILES" 5).toOption.all
      (fun route => route.validUntil.all fun v => decide (6 < v)) = true := by
    decide +kernel
  have hstarted : ∀ r ∈ freshState.store.db.conversionRates, r.effectiveFrom ≤ 5 := by
    decide +kernel
  have hrates : ∀ a ∈ admission 0 "user_alice" "key-1" sampleBody 5, ∀ change,
      a ≠ .rates change := by
    rintro _ ha change rfl
    simp [admission] at ha
  obtain ⟨s, hs, hopen⟩ := (Option.any_eq_true _ _).mp hany
  obtain ⟨quoted, hquoted⟩ := exists_ok hquote
  obtain ⟨⟨d, db'⟩, hd⟩ := exists_ok hopen
  refine ⟨s, quoted, d, db', hs, hquoted, hd, ?_⟩
  have hroute : ∀ route,
      freshState.store.db.getRoute "NOVA_REWARDS" "SKYWARD_MILES" 5 = .ok route →
      (∀ first, (freshState.store.db.rateVersions route.source.id
        route.destination.id).head? = some first → first.effectiveFrom ≤ 5) ∧
        ∀ v, route.validUntil = some v → 6 < v := by
    intro route hroute
    rw [hroute] at hvalid
    refine ⟨?_, ?_⟩
    · intro first hfirst
      exact hstarted first (List.mem_filter.mp (List.mem_of_head? hfirst)).1
    · intro v hv
      simpa [Except.toOption, hv] using hvalid
  obtain ⟨t, -, -, -, -, -, -, heq⟩ := (quote_honoured freshState_initial freshState_tariffs
    Runs.run_nil hs hrates (by decide) hroute 6 sampleTransferId "user_alice" "key-1").2
      quoted d db' hquoted hd
  exact heq

end LoyaltyTransfer
