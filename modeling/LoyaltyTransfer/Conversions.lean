/-
# `LoyaltyTransfer.Conversions` — what the two roundings do to an amount

`calculate_conversion` rounds down twice, and the second time what is already
rounded.  With `base = ⌊points · n / d⌋`,

    destination = base + ⌊base · bps / 10000⌋

**Proved here.**  An amount is priced exactly when the rules of the rate admit it
and it is worth a point (`calculateConversion_iff`).  Over all amounts rounding
creates nothing, keeps the order and never rewards splitting
(`destinationFor_le`, `destinationFor_mono`, `destinationFor_add_le`).  What it
takes is the sum of two remainders (`roundingLoss_eq`), and that can be more than
a point.  Last, the three places that bound amounts agree: the request models,
the rules of a rate, and the columns of `transfers`.
-/
import LoyaltyTransfer.Engine

namespace LoyaltyTransfer

open Transaction

/-! ## An amount under a rate -/

/-- The checks `calculate_conversion` makes of the amount itself. -/
structure RateRule.Admits (rate : RateRule) (points : Int) : Prop where
  least : rate.minSourcePoints ≤ points
  most : ∀ m, rate.maxSourcePoints = some m → points ≤ m
  increment : points.fmod rate.sourceIncrement = 0

def RateRule.base (rate : RateRule) (points : Int) : Int :=
  (points * rate.numerator).fdiv rate.denominator

/-- The bonus in force, as basis points. -/
def appliedBps (bonus : Option BonusRule) (now : Time) : Int :=
  ((bonus.filter fun b => b.appliesAt now).map BonusRule.bonusBps).getD 0

def RateRule.bonusFor (rate : RateRule) (bps points : Int) : Int :=
  (rate.base points * bps).fdiv bpsDenominator

/-- What `points` are worth, for amounts the rules refuse as well. -/
def RateRule.destinationFor (rate : RateRule) (bps points : Int) : Int :=
  rate.base points + rate.bonusFor bps points

/-- The conversion of an amount that is accepted. -/
def RateRule.conversion (rate : RateRule) (points : Int) (bonus : Option BonusRule)
    (now : Time) : Conversion where
  sourcePoints := points
  basePoints := rate.base points
  bonusPoints := rate.bonusFor (appliedBps bonus now) points
  destinationPoints := rate.destinationFor (appliedBps bonus now) points
  snapshot := {
    rateId := rate.rateId
    version := rate.version
    numerator := rate.numerator
    denominator := rate.denominator
    bonusId := (bonus.filter fun b => b.appliesAt now).map BonusRule.bonusId
    bonusBps := (bonus.filter fun b => b.appliesAt now).map BonusRule.bonusBps }

def zeroDestination : DomainError where
  code := .zeroDestinationPoints
  detail := "This amount converts to zero destination points."

section

variable {rate : RateRule} {points : Int} {bonus : Option BonusRule} {now : Time} {c : Conversion}

/-- Past the rules only an amount worth nothing is refused. -/
theorem calculateConversion_of_admits (h : rate.Admits points) :
    calculateConversion rate points bonus now =
      if rate.destinationFor (appliedBps bonus now) points = 0 then .error zeroDestination
      else .ok (rate.conversion points bonus now) := by
  have hleast : ¬ points < rate.minSourcePoints := not_lt.mpr h.least
  have hincrement : ¬ points.fmod rate.sourceIncrement ≠ 0 := not_not.mpr h.increment
  simp only [calculateConversion, bind, Except.bind, pure, Except.pure, throw, throwThe,
    MonadExceptOf.throw, if_neg hleast, if_neg hincrement, RateRule.conversion,
    RateRule.destinationFor, RateRule.bonusFor, appliedBps]
  rcases Option.eq_none_or_eq_some (bonus.filter fun b => b.appliesAt now) with
    happlied | ⟨b, happlied⟩
  · cases hmost : rate.maxSourcePoints with
    | none => simp [happlied, RateRule.base, zeroDestination]
    | some most =>
        simp [happlied, RateRule.base, zeroDestination, not_lt.mpr (h.most most hmost)]
  · cases hmost : rate.maxSourcePoints with
    | none => simp [happlied, RateRule.base, zeroDestination]
    | some most =>
        simp [happlied, RateRule.base, zeroDestination, not_lt.mpr (h.most most hmost)]

/-- The rules refuse, each with its own error. -/
theorem admits_of_calculateConversion (h : calculateConversion rate points bonus now = .ok c) :
    rate.Admits points := by
  simp only [calculateConversion, bind, Except.bind, pure, Except.pure, throw, throwThe,
    MonadExceptOf.throw] at h
  split at h
  · cases h
  · rename_i hleast
    cases hmost : rate.maxSourcePoints with
    | none =>
        simp only [hmost] at h
        split at h
        · cases h
        · rename_i hincrement
          refine ⟨not_lt.mp hleast, ?_, not_not.mp hincrement⟩
          intro m hm
          rw [hmost] at hm
          cases hm
    | some most =>
        simp only [hmost] at h
        split at h
        · cases h
        · rename_i hle
          split at h
          · cases h
          · rename_i hincrement
            refine ⟨not_lt.mp hleast, ?_, not_not.mp hincrement⟩
            intro m hm
            rw [hmost] at hm
            cases hm
            exact not_lt.mp hle

theorem calculateConversion_iff :
    calculateConversion rate points bonus now = .ok c ↔
      rate.Admits points ∧ rate.destinationFor (appliedBps bonus now) points ≠ 0 ∧
        c = rate.conversion points bonus now := by
  constructor
  · intro h
    have hadmits := admits_of_calculateConversion h
    rw [calculateConversion_of_admits hadmits] at h
    split at h
    · cases h
    · rename_i hworth
      cases h
      exact ⟨hadmits, hworth, rfl⟩
  · rintro ⟨hadmits, hworth, rfl⟩
    rw [calculateConversion_of_admits hadmits, if_neg hworth]

end

/-! ## Rounding over all amounts -/

section

variable {rate : RateRule} {bps a b : Int}

theorem base_eq (hd : 0 < rate.denominator) (points : Int) :
    rate.base points = points * rate.numerator / rate.denominator :=
  Int.fdiv_eq_ediv_of_nonneg _ hd.le

theorem bonusFor_eq (rate : RateRule) (bps points : Int) :
    rate.bonusFor bps points = rate.base points * bps / bpsDenominator :=
  Int.fdiv_eq_ediv_of_nonneg _ (by decide)

/-- Rounding never creates points. -/
theorem destinationFor_le (hd : 0 < rate.denominator) (hbps : 0 ≤ bps) (points : Int) :
    rate.destinationFor bps points * rate.denominator * bpsDenominator ≤
      points * rate.numerator * (bpsDenominator + bps) := by
  have hbase : rate.base points * rate.denominator ≤ points * rate.numerator := by
    rw [base_eq hd]
    exact Int.ediv_mul_le _ hd.ne'
  have hbonus : rate.bonusFor bps points * bpsDenominator ≤ rate.base points * bps := by
    rw [bonusFor_eq]
    exact Int.ediv_mul_le _ (by decide)
  have hfactor : 0 ≤ bpsDenominator + bps := Int.add_nonneg (by decide) hbps
  calc rate.destinationFor bps points * rate.denominator * bpsDenominator
      = (rate.base points * bpsDenominator + rate.bonusFor bps points * bpsDenominator) *
          rate.denominator := by rw [RateRule.destinationFor]; ring
    _ ≤ (rate.base points * bpsDenominator + rate.base points * bps) * rate.denominator :=
        Int.mul_le_mul_of_nonneg_right (Int.add_le_add_left hbonus _) hd.le
    _ = rate.base points * rate.denominator * (bpsDenominator + bps) := by ring
    _ ≤ points * rate.numerator * (bpsDenominator + bps) :=
        Int.mul_le_mul_of_nonneg_right hbase hfactor

theorem base_mono (hn : 0 < rate.numerator) (hd : 0 < rate.denominator) (h : a ≤ b) :
    rate.base a ≤ rate.base b := by
  rw [base_eq hd, base_eq hd]
  exact Int.ediv_le_ediv hd (Int.mul_le_mul_of_nonneg_right h hn.le)

/-- More points are never worth less. -/
theorem destinationFor_mono (hn : 0 < rate.numerator) (hd : 0 < rate.denominator)
    (hbps : 0 ≤ bps) (h : a ≤ b) : rate.destinationFor bps a ≤ rate.destinationFor bps b := by
  have hbase := base_mono hn hd h
  refine Int.add_le_add hbase ?_
  rw [bonusFor_eq, bonusFor_eq]
  exact Int.ediv_le_ediv (by decide) (Int.mul_le_mul_of_nonneg_right hbase hbps)

theorem base_add_le (hd : 0 < rate.denominator) (a b : Int) :
    rate.base a + rate.base b ≤ rate.base (a + b) := by
  rw [base_eq hd, base_eq hd, base_eq hd, Int.add_mul]
  exact Int.ediv_add_ediv_le_add_ediv hd

/-- Two amounts apart are never worth more than together: through both roundings. -/
theorem destinationFor_add_le (hd : 0 < rate.denominator) (hbps : 0 ≤ bps) (a b : Int) :
    rate.destinationFor bps a + rate.destinationFor bps b ≤ rate.destinationFor bps (a + b) := by
  have hbase := base_add_le hd a b
  have hbonus : rate.bonusFor bps a + rate.bonusFor bps b ≤ rate.bonusFor bps (a + b) := by
    rw [bonusFor_eq, bonusFor_eq, bonusFor_eq]
    calc rate.base a * bps / bpsDenominator + rate.base b * bps / bpsDenominator
        ≤ (rate.base a * bps + rate.base b * bps) / bpsDenominator :=
          Int.ediv_add_ediv_le_add_ediv (by decide)
      _ = (rate.base a + rate.base b) * bps / bpsDenominator := by rw [Int.add_mul]
      _ ≤ rate.base (a + b) * bps / bpsDenominator :=
          Int.ediv_le_ediv (by decide) (Int.mul_le_mul_of_nonneg_right hbase hbps)
  simp only [RateRule.destinationFor]
  omega

/-- Nor are any number of them. -/
theorem sum_destinationFor_le (hd : 0 < rate.denominator) (hbps : 0 ≤ bps) (parts : List Int) :
    (parts.map (rate.destinationFor bps)).sum ≤ rate.destinationFor bps parts.sum := by
  induction parts with
  | nil => simp [RateRule.destinationFor, RateRule.bonusFor, RateRule.base]
  | cons a parts ih =>
      simp only [List.map_cons, List.sum_cons]
      exact (Int.add_le_add_left ih _).trans (destinationFor_add_le hd hbps a parts.sum)

end

section

variable {rate : RateRule} {points : Int} {bonus : Option BonusRule} {now : Time} {c : Conversion}

theorem appliedBps_bounds
    (h : ∀ b, bonus = some b → 0 ≤ b.bonusBps ∧ b.bonusBps ≤ 10000) :
    0 ≤ appliedBps bonus now ∧ appliedBps bonus now ≤ 10000 := by
  cases bonus with
  | none => exact ⟨le_refl 0, Int.zero_le_ofNat 10000⟩
  | some b =>
      rw [appliedBps, Option.filter_some]
      split
      · exact h b rfl
      · exact ⟨le_refl 0, by decide⟩

theorem calculateConversion_destination
    (h : calculateConversion rate points bonus now = .ok c) :
    c.destinationPoints = rate.destinationFor (appliedBps bonus now) points := by
  obtain ⟨-, -, rfl⟩ := calculateConversion_iff.mp h
  rfl

/-- Rounding never creates points, keeps the order of amounts, and an amount
split in two or in any number of parts is never worth more. -/
theorem rounding_favours_platform (rate : RateRule) (bonus : Option BonusRule) (now : Time)
    (hn : 0 < rate.numerator) (hd : 0 < rate.denominator)
    (hbonus : ∀ b, bonus = some b → 0 ≤ b.bonusBps ∧ b.bonusBps ≤ 10000) :
    (∀ points c, calculateConversion rate points bonus now = .ok c →
      c.destinationPoints * rate.denominator * 10000 ≤
        points * rate.numerator * (10000 + appliedBps bonus now)) ∧
    (∀ a b ca cb, a ≤ b → calculateConversion rate a bonus now = .ok ca →
      calculateConversion rate b bonus now = .ok cb →
      ca.destinationPoints ≤ cb.destinationPoints) ∧
    (∀ a b ca cb cab, calculateConversion rate a bonus now = .ok ca →
      calculateConversion rate b bonus now = .ok cb →
      calculateConversion rate (a + b) bonus now = .ok cab →
      ca.destinationPoints + cb.destinationPoints ≤ cab.destinationPoints) ∧
    ∀ (parts : List Conversion) whole,
      (∀ c ∈ parts, calculateConversion rate c.sourcePoints bonus now = .ok c) →
      calculateConversion rate (parts.map Conversion.sourcePoints).sum bonus now = .ok whole →
      (parts.map Conversion.destinationPoints).sum ≤ whole.destinationPoints := by
  have hbps : 0 ≤ appliedBps bonus now := (appliedBps_bounds hbonus).1
  refine ⟨?_, ?_, ?_, ?_⟩
  · intro points c h
    rw [calculateConversion_destination h]
    exact destinationFor_le hd hbps points
  · intro a b ca cb hab ha hb
    rw [calculateConversion_destination ha, calculateConversion_destination hb]
    exact destinationFor_mono hn hd hbps hab
  · intro a b ca cb cab ha hb hab
    rw [calculateConversion_destination ha, calculateConversion_destination hb,
      calculateConversion_destination hab]
    exact destinationFor_add_le hd hbps a b
  · intro parts whole hparts hwhole
    have hsum : parts.map Conversion.destinationPoints =
        (parts.map Conversion.sourcePoints).map
          (rate.destinationFor (appliedBps bonus now)) := by
      rw [List.map_map]
      exact List.map_congr_left fun c hc => calculateConversion_destination (hparts c hc)
    rw [calculateConversion_destination hwhole, hsum]
    exact sum_destinationFor_le hd hbps _

end

/-- Three card points to two cruise points. -/
def cruiseRate : RateRule where
  rateId := 4
  version := 1
  numerator := 2
  denominator := 3
  minSourcePoints := 5000
  sourceIncrement := 1000
  maxSourcePoints := some 300000
  effectiveTo := none

/-- Plus 25% for the first day. -/
def quarterBonus : BonusRule := ⟨1, 2500, 0, 86400⟩

theorem cruiseRate_admits {points : Int} (hleast : 5000 ≤ points) (hmost : points ≤ 300000)
    (hincrement : points.fmod 1000 = 0) : cruiseRate.Admits points := by
  refine ⟨hleast, ?_, hincrement⟩
  rintro m ⟨⟩
  exact hmost

/-- 7000 and 8000 points are worth 5832 and 6666, 15000 points 12500. -/
theorem rounding_favours_platform_cruise :
    (cruiseRate.conversion 7000 (some quarterBonus) 60).destinationPoints +
        (cruiseRate.conversion 8000 (some quarterBonus) 60).destinationPoints ≤
      (cruiseRate.conversion (7000 + 8000) (some quarterBonus) 60).destinationPoints := by
  have hrules := rounding_favours_platform cruiseRate (some quarterBonus) 60 (by decide)
    (by decide) (by rintro b ⟨⟩; decide)
  refine hrules.2.2.1 7000 8000 _ _ _ ?_ ?_ ?_
  · exact calculateConversion_iff.mpr
      ⟨cruiseRate_admits (by decide) (by decide) (by decide), by decide, rfl⟩
  · exact calculateConversion_iff.mpr
      ⟨cruiseRate_admits (by decide) (by decide) (by decide), by decide, rfl⟩
  · exact calculateConversion_iff.mpr
      ⟨cruiseRate_admits (by decide) (by decide) (by decide), by decide, rfl⟩

/-! ## What rounding takes -/

/-- The value of `points` without rounding. -/
def RateRule.exactValue (rate : RateRule) (bps points : Int) : ℚ :=
  points * rate.numerator / rate.denominator * (1 + bps / 10000)

/-- What the first rounding drops, in `1 / denominator`. -/
def RateRule.baseRemainder (rate : RateRule) (points : Int) : Int :=
  (points * rate.numerator).fmod rate.denominator

/-- What the second rounding drops, in `1 / (10000 · denominator)`. -/
def RateRule.bonusRemainder (rate : RateRule) (bps points : Int) : Int :=
  (bps * (points * rate.numerator - rate.baseRemainder points)).fmod
    (bpsDenominator * rate.denominator)

/-- The two remainders, the first with its bonus, make less than a point. -/
def RateRule.RemaindersBelowOne (rate : RateRule) (bps points : Int) : Prop :=
  rate.baseRemainder points * (bpsDenominator + bps) + rate.bonusRemainder bps points <
    bpsDenominator * rate.denominator

section

variable {rate : RateRule} {bps points : Int}

theorem baseRemainder_eq (hd : 0 < rate.denominator) :
    rate.baseRemainder points = points * rate.numerator - rate.base points * rate.denominator := by
  rw [RateRule.baseRemainder, Int.fmod_eq_emod_of_nonneg _ hd.le, base_eq hd, Int.emod_def,
    Int.mul_comm rate.denominator]

theorem bonusRemainder_eq (hd : 0 < rate.denominator) :
    rate.bonusRemainder bps points =
      (rate.base points * bps - rate.bonusFor bps points * bpsDenominator) * rate.denominator := by
  have hscaled : bps * (points * rate.numerator - rate.baseRemainder points) =
      rate.denominator * (rate.base points * bps) := by
    rw [baseRemainder_eq hd]
    ring
  have hpos : (0 : Int) ≤ bpsDenominator * rate.denominator := Int.mul_nonneg (by decide) hd.le
  rw [RateRule.bonusRemainder, hscaled, Int.fmod_eq_emod_of_nonneg _ hpos,
    Int.mul_comm bpsDenominator, Int.mul_emod_mul_of_pos _ _ hd, bonusFor_eq, Int.emod_def]
  ring

theorem baseRemainder_nonneg (hd : 0 < rate.denominator) : 0 ≤ rate.baseRemainder points := by
  rw [RateRule.baseRemainder, Int.fmod_eq_emod_of_nonneg _ hd.le]
  exact Int.emod_nonneg _ hd.ne'

theorem bonusRemainder_nonneg (hd : 0 < rate.denominator) : 0 ≤ rate.bonusRemainder bps points := by
  have hpos : (0 : Int) < bpsDenominator * rate.denominator := Int.mul_pos (by decide) hd
  rw [RateRule.bonusRemainder, Int.fmod_eq_emod_of_nonneg _ hpos.le]
  exact Int.emod_nonneg _ hpos.ne'

/-- What is lost is the two remainders. -/
theorem roundingLoss_eq (hd : 0 < rate.denominator) :
    rate.exactValue bps points - rate.destinationFor bps points =
      ((rate.baseRemainder points * (bpsDenominator + bps) + rate.bonusRemainder bps points : Int) :
        ℚ) / (bpsDenominator * rate.denominator : Int) := by
  have hdq : (rate.denominator : ℚ) ≠ 0 := by exact_mod_cast hd.ne'
  rw [baseRemainder_eq hd, bonusRemainder_eq hd, RateRule.exactValue, RateRule.destinationFor,
    bpsDenominator]
  push_cast
  field_simp
  ring

theorem baseRemainder_lt (hd : 0 < rate.denominator) :
    rate.baseRemainder points < rate.denominator := by
  rw [RateRule.baseRemainder, Int.fmod_eq_emod_of_nonneg _ hd.le]
  exact Int.emod_lt_of_pos _ hd

theorem bonusRemainder_lt (hd : 0 < rate.denominator) :
    rate.bonusRemainder bps points < bpsDenominator * rate.denominator := by
  have hpos : (0 : Int) < bpsDenominator * rate.denominator := Int.mul_pos (by decide) hd
  rw [RateRule.bonusRemainder, Int.fmod_eq_emod_of_nonneg _ hpos.le]
  exact Int.emod_lt_of_pos _ hpos

/-- The bound that does hold: a point for each rounding, the first with its bonus. -/
theorem roundingLoss_lt (hd : 0 < rate.denominator) (hbps : 0 ≤ bps) :
    rate.exactValue bps points - rate.destinationFor bps points < 2 + bps / 10000 := by
  have hfactor : 0 < bpsDenominator + bps := Int.add_pos_of_pos_of_nonneg (by decide) hbps
  have hpos : (0 : ℚ) < (bpsDenominator * rate.denominator : Int) := by
    exact_mod_cast Int.mul_pos (by decide) hd
  have hfirst : rate.baseRemainder points * (bpsDenominator + bps) <
      rate.denominator * (bpsDenominator + bps) :=
    Int.mul_lt_mul_of_pos_right (baseRemainder_lt hd) hfactor
  have hsum : rate.baseRemainder points * (bpsDenominator + bps) +
      rate.bonusRemainder bps points <
      rate.denominator * (bpsDenominator + bps) + bpsDenominator * rate.denominator :=
    Int.add_lt_add hfirst (bonusRemainder_lt hd)
  rw [roundingLoss_eq hd, div_lt_iff₀ hpos]
  calc ((rate.baseRemainder points * (bpsDenominator + bps) +
        rate.bonusRemainder bps points : Int) : ℚ)
      < (rate.denominator * (bpsDenominator + bps) + bpsDenominator * rate.denominator : Int) := by
        exact_mod_cast hsum
    _ = (2 + bps / 10000) * (bpsDenominator * rate.denominator : Int) := by
        rw [bpsDenominator]
        push_cast
        ring

theorem remaindersBelowOne_of_noBonus (hd : 0 < rate.denominator) :
    rate.RemaindersBelowOne 0 points := by
  have hlt : rate.baseRemainder points < rate.denominator := baseRemainder_lt hd
  have hzero : rate.bonusRemainder 0 points = 0 := by simp [RateRule.bonusRemainder]
  rw [RateRule.RemaindersBelowOne, hzero, bpsDenominator]
  omega

/-- An amount that the base rate converts without a remainder. -/
theorem remaindersBelowOne_of_exactBase (hd : 0 < rate.denominator)
    (h : rate.baseRemainder points = 0) : rate.RemaindersBelowOne bps points := by
  rw [RateRule.RemaindersBelowOne, h, Int.zero_mul, Int.zero_add]
  exact bonusRemainder_lt hd

end

/-- An accepted amount loses less than a point exactly when its two remainders
make less than one. -/
theorem roundingLoss_lt_one_iff (rate : RateRule) (points : Int) (bonus : Option BonusRule)
    (now : Time) (c : Conversion) (hd : 0 < rate.denominator)
    (hbonus : ∀ b, bonus = some b → 1 ≤ b.bonusBps ∧ b.bonusBps ≤ 10000)
    (h : calculateConversion rate points bonus now = .ok c) :
    (0 ≤ rate.exactValue (appliedBps bonus now) points - c.destinationPoints ∧
        rate.exactValue (appliedBps bonus now) points - c.destinationPoints < 1) ↔
      rate.RemaindersBelowOne (appliedBps bonus now) points := by
  have hbps : 0 ≤ appliedBps bonus now :=
    (appliedBps_bounds fun b hb => ⟨Int.le_of_lt (hbonus b hb).1, (hbonus b hb).2⟩).1
  have hpos : (0 : ℚ) < (bpsDenominator * rate.denominator : Int) := by
    exact_mod_cast Int.mul_pos (by decide) hd
  rw [calculateConversion_destination h, roundingLoss_eq hd]
  constructor
  · rintro ⟨-, hlt⟩
    rw [div_lt_one hpos] at hlt
    exact_mod_cast hlt
  · intro hlt
    refine ⟨div_nonneg ?_ hpos.le, ?_⟩
    · have hfactor : 0 ≤ bpsDenominator + appliedBps bonus now :=
        Int.add_nonneg (by decide) hbps
      exact_mod_cast Int.add_nonneg (Int.mul_nonneg (baseRemainder_nonneg hd) hfactor)
        (bonusRemainder_nonneg hd)
    · rw [div_lt_one hpos]
      exact_mod_cast hlt

/-- 6000 points are worth 4000 and 1000 of bonus: nothing is lost. -/
theorem roundingLoss_lt_one_cruise :
    cruiseRate.exactValue (appliedBps (some quarterBonus) 60) 6000 -
      (cruiseRate.conversion 6000 (some quarterBonus) 60).destinationPoints < 1 := by
  have hiff := roundingLoss_lt_one_iff cruiseRate 6000 (some quarterBonus) 60 _ (by decide)
    (by rintro b ⟨⟩; decide) (calculateConversion_iff.mpr
      ⟨cruiseRate_admits (by decide) (by decide) (by decide), by decide, rfl⟩)
  have hbelow : cruiseRate.RemaindersBelowOne (appliedBps (some quarterBonus) 60) 6000 :=
    remaindersBelowOne_of_exactBase (by decide) (by decide)
  exact (hiff.mpr hbelow).2

/-- 7000 points are worth 4666⅔ and a quarter of that: 5833⅓.  They become
4666 and 1166: 5832. -/
theorem roundingLoss_exceeds_one :
    0 < cruiseRate.numerator ∧ 0 < cruiseRate.denominator ∧
    1 ≤ quarterBonus.bonusBps ∧ quarterBonus.bonusBps ≤ 10000 ∧
    quarterBonus.appliesAt 60 = true ∧
    calculateConversion cruiseRate 7000 (some quarterBonus) 60 =
      .ok (cruiseRate.conversion 7000 (some quarterBonus) 60) ∧
    ¬ cruiseRate.exactValue quarterBonus.bonusBps 7000 -
      (cruiseRate.conversion 7000 (some quarterBonus) 60).destinationPoints < 1 := by
  refine ⟨by decide, by decide, by decide, by decide, by decide, ?_, ?_⟩
  · exact calculateConversion_iff.mpr
      ⟨cruiseRate_admits (by decide) (by decide) (by decide), by decide, rfl⟩
  · have hworth : (cruiseRate.conversion 7000 (some quarterBonus) 60).destinationPoints = 5832 := by
      decide
    rw [hworth, RateRule.exactValue, cruiseRate, quarterBonus]
    norm_num

/-! ## The bounds of the three layers -/

/-- `MAX_RATE_TERM`. -/
def maxRateTerm : Int := 1000000

/-- `Points`. -/
def pointsBounds (n : Int) : Bool := decide (0 < n) && decide (n ≤ maxPoints)

/-- `RateTerm`. -/
def rateTermBounds (n : Int) : Bool := decide (0 < n) && decide (n ≤ maxRateTerm)

/-- `RateCreateRequest`: what the route's validation lets through. -/
def NewRate.valid (r : NewRate) : Bool :=
  programCodeFormat r.sourceProgram && programCodeFormat r.destinationProgram &&
    rateTermBounds r.numerator && rateTermBounds r.denominator &&
    pointsBounds r.minSourcePoints && pointsBounds r.sourceIncrement &&
    r.maxSourcePoints.all pointsBounds

/-- `BonusCreateRequest`, likewise. -/
def NewBonus.valid (b : NewBonus) : Bool :=
  programCodeFormat b.sourceProgram && programCodeFormat b.destinationProgram &&
    decide (0 < b.bonusBps) && decide (b.bonusBps ≤ 10000)

/-- The rule read back from the row of an accepted rate. -/
def NewRate.toRule (r : NewRate) (rateId : Nat) (version : Int) (effectiveTo : Option Time) :
    RateRule where
  rateId := rateId
  version := version
  numerator := r.numerator
  denominator := r.denominator
  minSourcePoints := r.minSourcePoints
  sourceIncrement := r.sourceIncrement
  maxSourcePoints := r.maxSourcePoints
  effectiveTo := effectiveTo

def NewBonus.toRule (b : NewBonus) (bonusId : Nat) : BonusRule :=
  ⟨bonusId, b.bonusBps, b.startsAt, b.endsAt⟩

theorem createRateVersion_toRule {db db' : Database} {newRate : NewRate} {changedAt : Time}
    {r : ConversionRate} (h : (createRateVersion newRate changedAt).run db = .ok (r, db')) :
    toRateRule r = newRate.toRule r.id r.version r.effectiveTo := by
  simp only [createRateVersion, Tx.bind_ok, Tx.get_ok, Tx.ofExcept_ok, Tx.pure_ok] at h
  obtain ⟨_, _, ⟨_, _, e₁⟩, _, _, e₂, _, _, ⟨_, _, e₃⟩, _, _, ⟨_, _, e₄⟩, _, _, hclose, _, _,
    hins, e₅⟩ := h
  cases e₅
  rfl

theorem createBonus_toRule {db db' : Database} {newBonus : NewBonus} {now : Time}
    {b : TransferBonus} (h : (createBonus newBonus now).run db = .ok (b, db')) :
    b.toRule = newBonus.toRule b.id := by
  simp only [createBonus, Tx.bind_ok, Tx.get_ok, Tx.ofExcept_ok, Tx.failIf_ok, Tx.pure_ok] at h
  obtain ⟨_, _, ⟨_, _, e₁⟩, _, _, ⟨_, e₂⟩, _, _, ⟨_, e₃⟩, _, _, e₄, _, _, ⟨_, _, e₅⟩, _, _,
    ⟨_, _, e₆⟩, _, _, ⟨_, e₇⟩, _, _, hins, e₁₄⟩ := h
  cases e₁₄
  rfl

/-- The CHECKs of `transfers` about its amounts. -/
def amountChecks : List Constraint :=
  [.ckTransfersBasePointsNonNegative, .ckTransfersBonusPointsNonNegative,
    .ckTransfersDestinationPointsPositive, .ckTransfersDestinationPointsSum,
    .ckTransfersSourcePointsPositive]

/-- The row has the amounts of the conversion. -/
structure Transfer.Carries (t : Transfer) (c : Conversion) : Prop where
  source : t.sourcePoints = c.sourcePoints
  base : t.basePoints = c.basePoints
  bonus : t.bonusPoints = c.bonusPoints
  destination : t.destinationPoints = c.destinationPoints

theorem carries_transfer (terms : DebitTerms) (transferId userId key : String) (createdAt : Time) :
    (terms.transfer transferId userId key createdAt).Carries terms.conversion :=
  ⟨rfl, rfl, rfl, rfl⟩

/-- Amounts that the columns of `transfers` take and its CHECKs let through. -/
structure Conversion.Storable (c : Conversion) : Prop where
  source : 0 < c.sourcePoints
  base : 0 ≤ c.basePoints
  bonus : 0 ≤ c.bonusPoints
  destination : 0 < c.destinationPoints
  sum : c.destinationPoints = c.basePoints + c.bonusPoints
  columns : ∀ n ∈ [c.sourcePoints, c.basePoints, c.bonusPoints, c.destinationPoints],
    fitsBigint n = true

theorem Conversion.Storable.violatedCheck {c : Conversion} (h : c.Storable) {t : Transfer}
    (ht : t.Carries c) : ∀ k ∈ amountChecks, t.violatedCheck ≠ some k := by
  have hsource : ¬ ¬ 0 < t.sourcePoints := not_not.mpr (by rw [ht.source]; exact h.source)
  have hbase : ¬ ¬ 0 ≤ t.basePoints := not_not.mpr (by rw [ht.base]; exact h.base)
  have hbonus : ¬ ¬ 0 ≤ t.bonusPoints := not_not.mpr (by rw [ht.bonus]; exact h.bonus)
  have hdest : ¬ ¬ 0 < t.destinationPoints :=
    not_not.mpr (by rw [ht.destination]; exact h.destination)
  have hsum : ¬ t.destinationPoints ≠ t.basePoints + t.bonusPoints :=
    not_not.mpr (by rw [ht.destination, ht.base, ht.bonus]; exact h.sum)
  intro k hk heq
  simp only [Transfer.violatedCheck, if_neg hsource, if_neg hbase, if_neg hbonus, if_neg hdest,
    if_neg hsum] at heq
  repeat' split at heq
  all_goals cases heq
  all_goals exact absurd hk (by decide)

section

variable {newRate : NewRate} {rateId : Nat} {version : Int} {effectiveTo : Option Time}

theorem pointsBounds_iff {n : Int} : pointsBounds n = true ↔ 0 < n ∧ n ≤ maxPoints := by
  simp [pointsBounds]

theorem rateTermBounds_iff {n : Int} : rateTermBounds n = true ↔ 0 < n ∧ n ≤ maxRateTerm := by
  simp [rateTermBounds]

/-- A rate the request model lets through has terms from 1 on. -/
structure RateRule.Bounded (rate : RateRule) : Prop where
  numerator : 0 < rate.numerator
  numeratorLe : rate.numerator ≤ maxRateTerm
  denominator : 0 < rate.denominator
  increment : 0 < rate.sourceIncrement

theorem NewRate.toRule_bounded (h : newRate.valid = true) :
    (newRate.toRule rateId version effectiveTo).Bounded := by
  simp only [NewRate.valid, Bool.and_eq_true] at h
  obtain ⟨⟨⟨⟨⟨_, hn⟩, hd⟩, _⟩, hinc⟩, _⟩ := h
  exact ⟨(rateTermBounds_iff.mp hn).1, (rateTermBounds_iff.mp hn).2, (rateTermBounds_iff.mp hd).1,
    (pointsBounds_iff.mp hinc).1⟩

end

section

variable {rate : RateRule} {bps points : Int}

theorem base_nonneg (hn : 0 < rate.numerator) (hd : 0 < rate.denominator) (hp : 0 < points) :
    0 ≤ rate.base points := by
  rw [base_eq hd]
  exact Int.ediv_nonneg (Int.mul_nonneg hp.le hn.le) hd.le

theorem bonusFor_nonneg (hbps : 0 ≤ bps) (hbase : 0 ≤ rate.base points) :
    0 ≤ rate.bonusFor bps points := by
  rw [bonusFor_eq]
  exact Int.ediv_nonneg (Int.mul_nonneg hbase hbps) (by decide)

/-- A bonus at most doubles. -/
theorem bonusFor_le_base (hbps : bps ≤ 10000) (hbase : 0 ≤ rate.base points) :
    rate.bonusFor bps points ≤ rate.base points := by
  rw [bonusFor_eq]
  refine Int.ediv_le_of_le_mul (by decide) ?_
  exact Int.mul_le_mul_of_nonneg_left hbps hbase

theorem base_le (h : rate.Bounded) (hp : 0 < points) (hmost : points ≤ maxPoints) :
    rate.base points ≤ maxPoints * maxRateTerm := by
  have hprod : points * rate.numerator ≤ maxPoints * maxRateTerm :=
    Int.mul_le_mul hmost h.numeratorLe h.numerator.le (by decide)
  have hnonneg : 0 ≤ points * rate.numerator := Int.mul_nonneg hp.le h.numerator.le
  rw [base_eq h.denominator]
  exact (Int.ediv_le_self _ hnonneg).trans hprod

/-- An amount is worth something when it is worth a base point. -/
theorem destinationFor_ne_zero_iff (hn : 0 < rate.numerator) (hd : 0 < rate.denominator)
    (hbps : 0 ≤ bps) (hp : 0 < points) :
    rate.destinationFor bps points ≠ 0 ↔ rate.denominator ≤ points * rate.numerator := by
  have hbase := base_nonneg hn hd hp
  have hbonus := bonusFor_nonneg hbps hbase
  have hworth : 1 ≤ rate.base points ↔ rate.denominator ≤ points * rate.numerator := by
    rw [base_eq hd, Int.le_ediv_iff_mul_le hd, Int.one_mul]
  rw [← hworth, RateRule.destinationFor]
  constructor
  · intro hne
    by_contra hlt
    have hzero : rate.base points = 0 := by omega
    have hnone : rate.bonusFor bps points = 0 := by simp [RateRule.bonusFor, hzero]
    exact hne (by rw [hzero, hnone]; rfl)
  · intro hone
    omega

/-- The conversion of an admitted amount can be stored. -/
theorem conversion_storable (h : rate.Bounded) {bonus : Option BonusRule} {now : Time}
    (hbonus : ∀ b, bonus = some b → 0 ≤ b.bonusBps ∧ b.bonusBps ≤ 10000) (hp : 0 < points)
    (hmost : points ≤ maxPoints)
    (hworth : rate.destinationFor (appliedBps bonus now) points ≠ 0) :
    (rate.conversion points bonus now).Storable := by
  obtain ⟨hbps, hbpsLe⟩ : 0 ≤ appliedBps bonus now ∧ appliedBps bonus now ≤ 10000 :=
    appliedBps_bounds hbonus
  have hbase := base_nonneg h.numerator h.denominator hp
  have hbaseLe := base_le h hp hmost
  have hextra := bonusFor_nonneg hbps hbase
  have hextraLe := bonusFor_le_base hbpsLe hbase
  have hdest : rate.destinationFor (appliedBps bonus now) points =
      rate.base points + rate.bonusFor (appliedBps bonus now) points := rfl
  rw [hdest] at hworth
  refine ⟨hp, hbase, hextra, ?_, rfl, ?_⟩
  · show 0 < rate.base points + rate.bonusFor (appliedBps bonus now) points
    omega
  · intro n hn
    simp only [maxPoints, maxRateTerm] at hmost hbaseLe
    simp only [RateRule.conversion, hdest, List.mem_cons, List.not_mem_nil, or_false] at hn
    rw [fitsBigint, Bool.and_eq_true, decide_eq_true_eq, decide_eq_true_eq, maxBigint]
    rcases hn with rfl | rfl | rfl | rfl <;> omega

end

/-- Layer by layer: an amount the request model admits is priced exactly when it
lies within the rate's bounds, is a multiple of its increment and is worth a base
point, whatever the bonus; and what it is priced at can be stored. -/
theorem accepted_rate_prices (newRate : NewRate) (hvalid : newRate.valid = true)
    (rateId : Nat) (version : Int) (effectiveTo : Option Time) (newBonus : Option NewBonus)
    (hbonus : ∀ b, newBonus = some b → b.valid = true) (bonusId : Nat) (now : Time)
    (body : TransferRequest) (hbody : body.valid = true) :
    ((∃ c, calculateConversion (newRate.toRule rateId version effectiveTo) body.sourcePoints
        (newBonus.map fun b => b.toRule bonusId) now = .ok c) ↔
      newRate.minSourcePoints ≤ body.sourcePoints ∧
        (∀ m, newRate.maxSourcePoints = some m → body.sourcePoints ≤ m) ∧
        newRate.sourceIncrement ∣ body.sourcePoints ∧
        newRate.denominator ≤ body.sourcePoints * newRate.numerator) ∧
    ∀ c, calculateConversion (newRate.toRule rateId version effectiveTo) body.sourcePoints
        (newBonus.map fun b => b.toRule bonusId) now = .ok c →
      c.sourcePoints = body.sourcePoints ∧ c.Storable ∧
        ∀ t : Transfer, t.Carries c → ∀ k ∈ amountChecks, t.violatedCheck ≠ some k := by
  have hrule : (newRate.toRule rateId version effectiveTo).Bounded := NewRate.toRule_bounded hvalid
  simp only [TransferRequest.valid, Bool.and_eq_true, decide_eq_true_eq] at hbody
  obtain ⟨⟨_, hp⟩, hmost⟩ := hbody
  have hbps : ∀ b, (newBonus.map fun b => b.toRule bonusId) = some b →
      0 ≤ b.bonusBps ∧ b.bonusBps ≤ 10000 := by
    intro b hb
    obtain ⟨new, hnew, rfl⟩ := Option.map_eq_some_iff.mp hb
    have hnewValid := hbonus new hnew
    simp only [NewBonus.valid, Bool.and_eq_true, decide_eq_true_eq] at hnewValid
    exact ⟨hnewValid.1.2.le, hnewValid.2⟩
  have happlied : 0 ≤ appliedBps (newBonus.map fun b => b.toRule bonusId) now :=
    (appliedBps_bounds hbps).1
  have hworth := destinationFor_ne_zero_iff hrule.numerator hrule.denominator happlied hp
  have hincrement : body.sourcePoints.fmod newRate.sourceIncrement = 0 ↔
      newRate.sourceIncrement ∣ body.sourcePoints := by
    have hpos : 0 ≤ newRate.sourceIncrement := hrule.increment.le
    rw [Int.fmod_eq_emod_of_nonneg _ hpos, Int.dvd_iff_emod_eq_zero]
  refine ⟨⟨?_, ?_⟩, ?_⟩
  · rintro ⟨c, hc⟩
    obtain ⟨hadmits, hne, -⟩ := calculateConversion_iff.mp hc
    exact ⟨hadmits.least, hadmits.most, hincrement.mp hadmits.increment, hworth.mp hne⟩
  · rintro ⟨hleast, hbelow, hmultiple, hone⟩
    exact ⟨_, calculateConversion_iff.mpr
      ⟨⟨hleast, hbelow, hincrement.mpr hmultiple⟩, hworth.mpr hone, rfl⟩⟩
  · intro c hc
    obtain ⟨-, hne, rfl⟩ := calculateConversion_iff.mp hc
    have hstorable := conversion_storable hrule hbps hp hmost hne
    exact ⟨rfl, hstorable, fun t ht => hstorable.violatedCheck ht⟩

def cruiseNewRate : NewRate where
  sourceProgram := "ZENITH_POINTS"
  destinationProgram := "HARBOR_CRUISE_POINTS"
  numerator := 2
  denominator := 3
  minSourcePoints := 5000
  sourceIncrement := 1000
  maxSourcePoints := some 300000

def cruiseRequest (points : Int) : TransferRequest :=
  ⟨"ZENITH_POINTS", "HARBOR_CRUISE_POINTS", points⟩

def cruiseNewBonus : NewBonus := ⟨"ZENITH_POINTS", "HARBOR_CRUISE_POINTS", 2500, 0, 86400⟩

/-- 7000 points pass all three layers. -/
theorem accepted_rate_prices_cruise :
    ∃ c, calculateConversion (cruiseNewRate.toRule 4 1 none) 7000
      ((some cruiseNewBonus).map fun b => b.toRule 1) 60 = .ok c := by
  have hprices := accepted_rate_prices cruiseNewRate (by decide) 4 1 none (some cruiseNewBonus)
    (by rintro b ⟨⟩; decide) 1 60 (cruiseRequest 7000) (by decide)
  refine hprices.1.mpr ⟨by decide, ?_, by decide, by decide⟩
  rintro m ⟨⟩
  decide

end LoyaltyTransfer
