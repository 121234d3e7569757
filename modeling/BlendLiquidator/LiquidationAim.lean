/-
How close a plan comes to the health factor it aims for.

The percent is found in 7-decimal fixed point, each step rounded down. Against
the exact arithmetic of the same auction, what is left to the target is within
one percent of what the selection recovers, up to what the roundings lose: less
than a millionth of the selected debts.
-/
import Mathlib.Algebra.Order.Field.Basic
import Mathlib.Data.Rat.Floor
import Mathlib.Tactic.FieldSimp
import Mathlib.Tactic.Linarith
import Mathlib.Tactic.Positivity
import BlendLiquidator.Agreement

namespace BlendLiquidator

open IntDiv Results

/-! ## The auction, exactly -/

def rawOf (values : List PositionValue) : Int := (values.map (·.raw)).sum

def effectiveOf (values : List PositionValue) : Int := (values.map (·.effective)).sum

/-- What counts of a selection's worth in a health factor, 7 decimals. -/
def factorOf (values : List PositionValue) : Int := effectiveOf values * SCALAR_7 / rawOf values

/-- What is withdrawn for a unit of debt, 7 decimals: one, and half of how far
the collateral's factor is under the debts'. -/
def incentiveOf (lot bid : List PositionValue) : Int :=
  SCALAR_7 + (SCALAR_7 - factorOf lot * SCALAR_7 / factorOf bid).tdiv 2

/-- What the whole of a bid recovers, as `selection_percent` rounds it. -/
def recovered (target : Int) (lot bid : List PositionValue) : Int :=
  (factorOf bid * target / SCALAR_7 - incentiveOf lot bid * factorOf lot / SCALAR_7) * rawOf bid / SCALAR_7

/-- The percent that closes the excess, before it is bounded. -/
def shareOf (excess target : Int) (lot bid : List PositionValue) : Int := excess * 100 / recovered target lot bid

/-- What is withdrawn of the collateral for a percent of the bid. -/
def withdrawnOf (lot bid : List PositionValue) (share : Int) : Int :=
  rawOf bid * share / 100 * incentiveOf lot bid / SCALAR_7

/-- What taking over the whole bid for its collateral recovers towards the
target. -/
def recovery (target : Int) (lot bid : List PositionValue) : ℚ :=
  effectiveOf bid * target / SCALAR_7 - rawOf bid * (incentiveOf lot bid / SCALAR_7) * (effectiveOf lot / rawOf lot)

/-- The collateral that is missing to the target once `percent` of the bid is
taken over. -/
def shortfall (data : PositionData) (target : Int) (lot bid : List PositionValue) (percent : Nat) : ℚ :=
  (data.liabilityBase - effectiveOf bid * percent / 100) * target / SCALAR_7 -
    (data.collateralBase - rawOf bid * percent / 100 * (incentiveOf lot bid / SCALAR_7) * (effectiveOf lot / rawOf lot))

theorem shortfall_eq {data : PositionData} {target : Int} {lot bid : List PositionValue} {percent : Nat} :
    shortfall data target lot bid percent =
      data.liabilityBase * target / SCALAR_7 - data.collateralBase - percent / 100 * recovery target lot bid := by
  unfold shortfall recovery
  ring

/-! ## The percent -/

section Percent

variable {lot bid : List PositionValue} {excess target : Int} {percent : Nat}

theorem totals_ok {values : List PositionValue} {total : Int × Int} (h : totals values = .ok total) :
    total = (rawOf values, effectiveOf values) := by
  have hsum : ∀ {values : List PositionValue} {start total : Int × Int},
      values.foldlM (fun total value => do
        let raw ← narrow (total.1 + value.raw)
        let effective ← narrow (total.2 + value.effective)
        pure (raw, effective)) start = .ok total →
      total = (start.1 + rawOf values, start.2 + effectiveOf values) := by
    intro values
    induction values with
    | nil =>
      intro start total h
      rw [← pure_ok_iff.1 h]
      simp [rawOf, effectiveOf]
    | cons value values ih =>
      intro start total h
      rw [List.foldlM_cons, bind_ok_iff] at h
      obtain ⟨next, hnext, h⟩ := h
      obtain ⟨raw, hraw, hnext⟩ := bind_ok_iff.1 hnext
      obtain ⟨effective, heffective, hnext⟩ := bind_ok_iff.1 hnext
      obtain rfl := pure_ok_iff.1 hnext
      rw [ih h, narrow_ok hraw, narrow_ok heffective]
      simp [rawOf, effectiveOf, add_assoc]
  simpa using hsum h

/-- Collateral counts for no more than it is worth, and debts for no less. -/
structure Weighted (lot bid : List PositionValue) : Prop where
  lot : ∀ value ∈ lot, 0 ≤ value.effective ∧ value.effective ≤ value.raw
  bid : ∀ value ∈ bid, 0 ≤ value.raw ∧ value.raw ≤ value.effective

theorem Weighted.totals (h : Weighted lot bid) :
    (0 ≤ effectiveOf lot ∧ effectiveOf lot ≤ rawOf lot) ∧ 0 ≤ rawOf bid ∧ rawOf bid ≤ effectiveOf bid := by
  refine ⟨⟨?_, ?_⟩, ?_, ?_⟩
  · exact List.sum_nonneg (by simpa using fun value hvalue => (h.lot value hvalue).1)
  · exact List.sum_le_sum fun value hvalue => (h.lot value hvalue).2
  · exact List.sum_nonneg (by simpa using fun value hvalue => (h.bid value hvalue).1)
  · exact List.sum_le_sum fun value hvalue => (h.bid value hvalue).2

theorem Weighted.positive (h : Weighted lot bid) (hlot : rawOf lot ≠ 0) (hbid : rawOf bid ≠ 0) :
    0 < rawOf lot ∧ 0 < rawOf bid := by
  obtain ⟨⟨heffective, hle⟩, hraw, -⟩ := h.totals
  omega

/-- The two factors stand on either side of one. -/
theorem Weighted.factors (h : Weighted lot bid) (hlot : rawOf lot ≠ 0) (hbid : rawOf bid ≠ 0) :
    (0 ≤ factorOf lot ∧ factorOf lot ≤ SCALAR_7) ∧ SCALAR_7 ≤ factorOf bid := by
  obtain ⟨⟨heffective, hle⟩, -, hle'⟩ := h.totals
  obtain ⟨hlotpos, hbidpos⟩ := h.positive hlot hbid
  refine ⟨⟨Int.ediv_nonneg (mul_nonneg heffective SCALAR_7_pos.le) hlotpos.le, ?_⟩, ?_⟩
  · exact Int.ediv_le_of_le_mul hlotpos (by rw [mul_comm]; exact mul_le_mul_of_nonneg_left hle SCALAR_7_pos.le)
  · exact Int.le_ediv_of_mul_le hbidpos (by rw [mul_comm]; exact mul_le_mul_of_nonneg_right hle' SCALAR_7_pos.le)

/-- The incentive is between one and one and a half. -/
theorem Weighted.incentive (h : Weighted lot bid) (hlot : rawOf lot ≠ 0) (hbid : rawOf bid ≠ 0) :
    SCALAR_7 ≤ incentiveOf lot bid ∧ 2 * incentiveOf lot bid ≤ 3 * SCALAR_7 := by
  obtain ⟨⟨hnonneg, hle⟩, hone⟩ := h.factors hlot hbid
  have hpos : 0 < factorOf bid := SCALAR_7_pos.trans_le hone
  have hratio : 0 ≤ factorOf lot * SCALAR_7 / factorOf bid :=
    Int.ediv_nonneg (mul_nonneg hnonneg SCALAR_7_pos.le) hpos.le
  have hratio' : factorOf lot * SCALAR_7 / factorOf bid ≤ SCALAR_7 := by
    refine (Int.ediv_le_ediv hpos (mul_le_mul hle hone SCALAR_7_pos.le SCALAR_7_pos.le)).trans ?_
    rw [Int.mul_ediv_cancel _ hpos.ne']
  unfold incentiveOf
  rw [Int.tdiv_eq_ediv_of_nonneg (by omega)]
  omega

/-- What a selection's percent says of it: that it cannot do, for want of worth
or of collateral, that its debts are not enough, or how much of them is. -/
inductive Selected (excess target : Int) (lot bid : List PositionValue) : Nat → Prop
  | worthless : rawOf lot = 0 ∨ rawOf bid = 0 ∨ factorOf lot = 0 → Selected excess target lot bid 0
  | uncovered : 0 < recovered target lot bid → shareOf excess target lot bid ≤ 100 →
    rawOf lot < withdrawnOf lot bid (shareOf excess target lot bid) → Selected excess target lot bid 0
  | beyond {percent : Nat} : rawOf lot ≠ 0 → rawOf bid ≠ 0 → 100 < percent → recovered target lot bid < excess →
    Selected excess target lot bid percent
  | found {percent : Nat} : rawOf lot ≠ 0 → rawOf bid ≠ 0 → 1 ≤ percent → percent ≤ 100 → 0 < recovered target lot bid →
    (percent : Int) = max (shareOf excess target lot bid) 1 →
    withdrawnOf lot bid (shareOf excess target lot bid) ≤ rawOf lot → Selected excess target lot bid percent

/-- Below its ceiling the conversion changes nothing. -/
theorem saturatingU32_eq {x : Int} (h0 : 0 ≤ x) : (saturatingU32 x : Int) = min x u32Max := by
  unfold saturatingU32
  split
  · next hfits => rw [Int.toNat_of_nonneg h0, min_eq_left hfits.2]
  · next hout => rw [min_eq_right (by omega)]

theorem selectionPercent_selected (hweighted : Weighted lot bid) (hexcess : 0 < excess)
    (h : selectionPercent excess lot bid target = .ok percent) : Selected excess target lot bid percent := by
  unfold selectionPercent at h
  obtain ⟨total, htotal, h⟩ := bind_ok_iff.1 h
  obtain rfl := totals_ok htotal
  obtain ⟨total', htotal', h⟩ := bind_ok_iff.1 h
  obtain rfl := totals_ok htotal'
  dsimp only at h
  obtain ⟨⟨heffective, hle⟩, hraw, hle'⟩ := hweighted.totals
  by_cases hempty : rawOf lot = 0 ∨ rawOf bid = 0 ∨ effectiveOf bid = 0
  · rw [if_pos hempty] at h
    cases pure_ok_iff.1 h
    exact .worthless (by omega)
  rw [if_neg hempty] at h
  push Not at hempty
  obtain ⟨hlot, hbid, hdebt⟩ := hempty
  have hlotpos : 0 < rawOf lot := by omega
  have hbidpos : 0 < rawOf bid := by omega
  obtain ⟨cf, hcf, h⟩ := bind_ok_iff.1 h
  rw [divFloor_eq hlotpos] at hcf
  obtain ⟨lf, hlf, h⟩ := bind_ok_iff.1 h
  rw [divFloor_eq hbidpos] at hlf
  obtain rfl : cf = factorOf lot := narrow_ok hcf
  obtain rfl : lf = factorOf bid := narrow_ok hlf
  have hlfpos : 0 < factorOf bid := SCALAR_7_pos.trans_le (hweighted.factors hlot hbid).2
  by_cases hfactor : factorOf lot = 0 ∨ factorOf bid = 0
  · rw [if_pos hfactor] at h
    cases pure_ok_iff.1 h
    exact .worthless (by omega)
  rw [if_neg hfactor] at h
  obtain ⟨ratio, hratio, h⟩ := bind_ok_iff.1 h
  rw [divFloor_eq hlfpos] at hratio
  obtain ⟨gap, hgap, h⟩ := bind_ok_iff.1 h
  obtain ⟨half, hhalf, h⟩ := bind_ok_iff.1 h
  obtain ⟨incentive, hincentive, h⟩ := bind_ok_iff.1 h
  obtain rfl : incentive = incentiveOf lot bid := by
    rw [narrow_ok hincentive, narrow_ok hhalf, narrow_ok hgap, narrow_ok hratio]
    rfl
  obtain ⟨kept, hkept, h⟩ := bind_ok_iff.1 h
  rw [mulFloor_eq SCALAR_7_pos] at hkept
  obtain ⟨given, hgiven, h⟩ := bind_ok_iff.1 h
  rw [mulFloor_eq SCALAR_7_pos] at hgiven
  obtain ⟨unit, hunit, h⟩ := bind_ok_iff.1 h
  have hunit' : unit = factorOf bid * target / SCALAR_7 - incentiveOf lot bid * factorOf lot / SCALAR_7 := by
    rw [narrow_ok hunit, narrow_ok hkept, narrow_ok hgiven]
  by_cases hnone : unit ≤ 0
  · rw [if_pos hnone] at h
    cases pure_ok_iff.1 h
    refine .beyond hlot hbid (by decide) (lt_of_le_of_lt ?_ hexcess)
    rw [recovered, ← hunit']
    exact (Int.ediv_le_ediv SCALAR_7_pos (mul_nonpos_of_nonpos_of_nonneg hnone hraw)).trans (Int.zero_ediv _).le
  rw [if_neg hnone] at h
  obtain ⟨denominator, hdenominator, h⟩ := bind_ok_iff.1 h
  rw [mulFloor_eq SCALAR_7_pos] at hdenominator
  obtain rfl : denominator = recovered target lot bid := by
    rw [narrow_ok hdenominator, hunit']
    rfl
  by_cases hsmall : recovered target lot bid ≤ 0
  · rw [if_pos hsmall] at h
    cases pure_ok_iff.1 h
    exact .beyond hlot hbid (by decide) (hsmall.trans_lt hexcess)
  rw [if_neg hsmall] at h
  have hrecovered : 0 < recovered target lot bid := not_le.1 hsmall
  obtain ⟨share, hshare, h⟩ := bind_ok_iff.1 h
  rw [mulFloor_eq hrecovered] at hshare
  obtain rfl : share = shareOf excess target lot bid := narrow_ok hshare
  have hnonneg : 0 ≤ shareOf excess target lot bid :=
    Int.ediv_nonneg (mul_nonneg hexcess.le (by decide)) hrecovered.le
  have hceiling := saturatingU32_eq hnonneg
  have hu32 : (100 : Int) < u32Max := by decide
  by_cases hover : saturatingU32 (shareOf excess target lot bid) > 100
  · rw [if_pos hover] at h
    rw [← pure_ok_iff.1 h]
    refine .beyond hlot hbid hover ?_
    have hfloor : shareOf excess target lot bid * recovered target lot bid ≤ excess * 100 :=
      Int.ediv_mul_le _ hrecovered.ne'
    have hmore := mul_lt_mul_of_pos_right (show (100 : Int) < shareOf excess target lot bid by omega) hrecovered
    omega
  rw [if_neg hover] at h
  have hfits : (saturatingU32 (shareOf excess target lot bid) : Int) = shareOf excess target lot bid := by omega
  obtain ⟨taken, htaken, h⟩ := bind_ok_iff.1 h
  rw [mulFloor_eq (by decide), hfits] at htaken
  obtain ⟨withdrawn, hwithdrawn, h⟩ := bind_ok_iff.1 h
  rw [mulFloor_eq SCALAR_7_pos] at hwithdrawn
  obtain rfl : withdrawn = withdrawnOf lot bid (shareOf excess target lot bid) := by
    rw [narrow_ok hwithdrawn, narrow_ok htaken]
    rfl
  by_cases hmore : withdrawnOf lot bid (shareOf excess target lot bid) > rawOf lot
  · rw [if_pos hmore] at h
    cases pure_ok_iff.1 h
    exact .uncovered hrecovered (by omega) hmore
  rw [if_neg hmore] at h
  rw [← pure_ok_iff.1 h]
  refine .found hlot hbid (le_max_right _ _) (by omega) hrecovered ?_ (not_lt.1 hmore)
  rw [Nat.cast_max, hfits]
  rfl

end Percent

/-! ## The roundings -/

section Roundings

variable {lot bid : List PositionValue} {target : Int}

/-- A rounded quotient is the exact one, less than one too small. -/
theorem floor_bounds {a d : Int} (hd : 0 < d) : ((a / d : Int) : ℚ) ≤ a / d ∧ (a : ℚ) / d < (a / d : Int) + 1 := by
  have hpos : (0 : ℚ) < d := by exact_mod_cast hd
  constructor
  · rw [le_div_iff₀ hpos]
    exact_mod_cast Int.ediv_mul_le a hd.ne'
  · rw [div_lt_iff₀ hpos]
    exact_mod_cast Int.lt_ediv_add_one_mul_self a hd

/-- The rounding error of what a selection recovers. -/
def slack (bid : List PositionValue) : ℚ := 1 + 3 * rawOf bid / SCALAR_7

/-- A product with a rounded-down factor, rounded down itself. -/
theorem mul_floor_bounds {a d factor : Int} {scale : ℚ} (hd : 0 < d) (hfactor : 0 ≤ factor ∧ factor ≤ scale * SCALAR_7) :
    ((a / d * factor / SCALAR_7 : Int) : ℚ) ≤ a / d * (factor / SCALAR_7) ∧
      (a : ℚ) / d * (factor / SCALAR_7) ≤ (a / d * factor / SCALAR_7 : Int) + 1 + scale := by
  obtain ⟨hfloor, hfloor'⟩ := @floor_bounds a d hd
  obtain ⟨hproduct, hproduct'⟩ := @floor_bounds (a / d * factor) SCALAR_7 SCALAR_7_pos
  have hunit : (0 : ℚ) < SCALAR_7 := by exact_mod_cast SCALAR_7_pos
  have hnonneg : (0 : ℚ) ≤ factor / SCALAR_7 := div_nonneg (by exact_mod_cast hfactor.1) hunit.le
  have hscale : (factor : ℚ) / SCALAR_7 ≤ scale := (div_le_iff₀ hunit).2 hfactor.2
  have hcast : ((a / d * factor : Int) : ℚ) / SCALAR_7 = (a / d : Int) * (factor / SCALAR_7) := by
    push_cast
    ring
  rw [hcast] at hproduct hproduct'
  constructor
  · exact hproduct.trans (mul_le_mul_of_nonneg_right hfloor hnonneg)
  · have hup := mul_le_mul_of_nonneg_right hfloor'.le hnonneg
    linarith

/-- What is divided by is what the selection recovers, to within its roundings. -/
theorem recovery_bounds (h : Weighted lot bid) (htarget : 0 ≤ target ∧ target ≤ 2 * SCALAR_7) (hlot : rawOf lot ≠ 0)
    (hbid : rawOf bid ≠ 0) : |recovery target lot bid - recovered target lot bid| ≤ slack bid := by
  obtain ⟨hlotpos, hbidpos⟩ := h.positive hlot hbid
  obtain ⟨hone, hhalf⟩ := h.incentive hlot hbid
  have hunit : (0 : ℚ) < SCALAR_7 := by exact_mod_cast SCALAR_7_pos
  have hlotpos' : (0 : ℚ) < rawOf lot := by exact_mod_cast hlotpos
  have hbidpos' : (0 : ℚ) < rawOf bid := by exact_mod_cast hbidpos
  have hincentive : 0 ≤ incentiveOf lot bid ∧ (incentiveOf lot bid : ℚ) ≤ 3 / 2 * SCALAR_7 := by
    refine ⟨SCALAR_7_pos.le.trans hone, ?_⟩
    have : (2 : ℚ) * incentiveOf lot bid ≤ 3 * SCALAR_7 := by exact_mod_cast hhalf
    linarith
  obtain ⟨hkept, hkept'⟩ := @mul_floor_bounds (effectiveOf bid * SCALAR_7) (rawOf bid) target 2 hbidpos
    ⟨htarget.1, by exact_mod_cast htarget.2⟩
  obtain ⟨hgiven, hgiven'⟩ := @mul_floor_bounds (effectiveOf lot * SCALAR_7) (rawOf lot) (incentiveOf lot bid) (3 / 2)
    hlotpos hincentive
  obtain ⟨hall, hall'⟩ := @floor_bounds ((factorOf bid * target / SCALAR_7 -
    incentiveOf lot bid * factorOf lot / SCALAR_7) * rawOf bid) SCALAR_7 SCALAR_7_pos
  rw [show effectiveOf bid * SCALAR_7 / rawOf bid = factorOf bid from rfl] at hkept hkept'
  rw [show effectiveOf lot * SCALAR_7 / rawOf lot = factorOf lot from rfl, mul_comm (factorOf lot)] at hgiven hgiven'
  -- for each unit of the bid, both sides are within three
  have hunits : recovery target lot bid = rawOf bid / SCALAR_7 *
      (((effectiveOf bid * SCALAR_7 : Int) : ℚ) / rawOf bid * (target / SCALAR_7) -
        ((effectiveOf lot * SCALAR_7 : Int) : ℚ) / rawOf lot * (incentiveOf lot bid / SCALAR_7)) := by
    unfold recovery
    push_cast
    field_simp
  have hshare : (0 : ℚ) ≤ rawOf bid / SCALAR_7 := (div_pos hbidpos' hunit).le
  have hrounded : (((factorOf bid * target / SCALAR_7 - incentiveOf lot bid * factorOf lot / SCALAR_7) * rawOf bid : Int) : ℚ) /
      SCALAR_7 = rawOf bid / SCALAR_7 *
        ((factorOf bid * target / SCALAR_7 : Int) - (incentiveOf lot bid * factorOf lot / SCALAR_7 : Int)) := by
    push_cast
    ring
  rw [hrounded] at hall hall'
  set kept : ℚ := ((factorOf bid * target / SCALAR_7 : Int) : ℚ)
  set given : ℚ := ((incentiveOf lot bid * factorOf lot / SCALAR_7 : Int) : ℚ)
  set exactKept : ℚ := ((effectiveOf bid * SCALAR_7 : Int) : ℚ) / rawOf bid * (target / SCALAR_7)
  set exactGiven : ℚ := ((effectiveOf lot * SCALAR_7 : Int) : ℚ) / rawOf lot * (incentiveOf lot bid / SCALAR_7)
  have hlow := mul_le_mul_of_nonneg_left (show kept - given - 3 ≤ exactKept - exactGiven by linarith) hshare
  have hhigh := mul_le_mul_of_nonneg_left (show exactKept - exactGiven ≤ kept - given + 3 by linarith) hshare
  have hslack : slack bid = 1 + rawOf bid / SCALAR_7 * 3 := by
    unfold slack
    ring
  rw [show recovered target lot bid = (factorOf bid * target / SCALAR_7 -
    incentiveOf lot bid * factorOf lot / SCALAR_7) * rawOf bid / SCALAR_7 from rfl, hunits, hslack, abs_le]
  constructor <;> linarith

/-- What a rounded quotient's percent gives back, to within its last percent. -/
theorem share_bounds {excess target : Int} (hrecovered : 0 < recovered target lot bid) :
    (shareOf excess target lot bid : ℚ) * recovered target lot bid ≤ excess * 100 ∧
      (excess : ℚ) * 100 < (shareOf excess target lot bid + 1) * recovered target lot bid := by
  constructor
  · exact_mod_cast Int.ediv_mul_le (excess * 100) hrecovered.ne'
  · exact_mod_cast Int.lt_ediv_add_one_mul_self (excess * 100) hrecovered

variable {data : PositionData} {excess : Int} {percent : Nat}

theorem one_le_slack (hbid : 0 ≤ rawOf bid) : 1 ≤ slack bid := by
  have hunit : (0 : ℚ) < SCALAR_7 := by exact_mod_cast SCALAR_7_pos
  have hraw : (0 : ℚ) ≤ 3 * rawOf bid / SCALAR_7 :=
    div_nonneg (mul_nonneg (by norm_num) (by exact_mod_cast hbid)) hunit.le
  unfold slack
  linarith

/-- The excess is rounded down, by less than one. -/
theorem excess_bounds (hexcess : excess = data.liabilityBase * target / SCALAR_7 - data.collateralBase) :
    (excess : ℚ) ≤ data.liabilityBase * target / SCALAR_7 - data.collateralBase ∧
      (data.liabilityBase : ℚ) * target / SCALAR_7 - data.collateralBase < excess + 1 := by
  obtain ⟨hlimit, hlimit'⟩ := @floor_bounds (data.liabilityBase * target) SCALAR_7 SCALAR_7_pos
  subst hexcess
  push_cast at *
  constructor <;> linarith

/-- A percent that was found leaves the account within a percent of what is
recovered from its target. -/
theorem shortfall_of_found (h : Weighted lot bid) (htarget : 0 ≤ target ∧ target ≤ 2 * SCALAR_7)
    (hexcess : excess = data.liabilityBase * target / SCALAR_7 - data.collateralBase) (hpos : 0 < excess)
    (hlot : rawOf lot ≠ 0) (hbid : rawOf bid ≠ 0) (hrange : 1 ≤ percent ∧ percent ≤ 100)
    (hrecovered : 0 < recovered target lot bid) (hpercent : (percent : Int) = max (shareOf excess target lot bid) 1) :
    |shortfall data target lot bid percent| ≤ recovery target lot bid / 100 + 3 * slack bid := by
  obtain ⟨hnear, hnear'⟩ := abs_le.1 (recovery_bounds h htarget hlot hbid)
  obtain ⟨hdown, hup⟩ := @share_bounds lot bid excess target hrecovered
  obtain ⟨hexact, hexact'⟩ := excess_bounds hexcess
  have hslack : 1 ≤ slack bid := one_le_slack h.totals.2.1
  have hexcess0 : (0 : ℚ) < excess := by exact_mod_cast hpos
  have hrecovered0 : (0 : ℚ) < recovered target lot bid := by exact_mod_cast hrecovered
  have hlow : (1 : ℚ) ≤ percent := by exact_mod_cast hrange.1
  have hhigh : (percent : ℚ) ≤ 100 := by exact_mod_cast hrange.2
  have hshare : (shareOf excess target lot bid : ℚ) ≤ percent := by
    have hle : shareOf excess target lot bid ≤ percent := by omega
    exact_mod_cast hle
  -- of the roundings, a percent bears at most its own share
  have herror : (percent : ℚ) * (recovery target lot bid - recovered target lot bid) ≤ 100 * slack bid := by
    calc (percent : ℚ) * (recovery target lot bid - recovered target lot bid)
        ≤ percent * slack bid := mul_le_mul_of_nonneg_left hnear' (by linarith)
      _ ≤ 100 * slack bid := mul_le_mul_of_nonneg_right hhigh (by linarith)
  have herror' : -(100 * slack bid) ≤ (percent : ℚ) * (recovery target lot bid - recovered target lot bid) := by
    calc -(100 * slack bid) ≤ -(percent * slack bid) := neg_le_neg (mul_le_mul_of_nonneg_right hhigh (by linarith))
      _ = percent * -slack bid := by ring
      _ ≤ percent * (recovery target lot bid - recovered target lot bid) :=
        mul_le_mul_of_nonneg_left hnear (by linarith)
  have htaken : (excess : ℚ) * 100 < (percent + 1) * recovered target lot bid :=
    hup.trans_le (mul_le_mul_of_nonneg_right (by linarith) hrecovered0.le)
  -- the least percent there is may be more than the excess asks for
  have hover : (percent : ℚ) * recovered target lot bid ≤ excess * 100 + recovered target lot bid := by
    rcases max_choice (shareOf excess target lot bid) 1 with hmax | hmax
    · have heq : (percent : ℚ) = shareOf excess target lot bid := by exact_mod_cast hpercent.trans hmax
      rw [heq]
      linarith
    · have heq : (percent : ℚ) = 1 := by exact_mod_cast hpercent.trans hmax
      rw [heq]
      linarith
  rw [shortfall_eq, abs_le]
  constructor <;> linarith

/-- Debts that were not enough leave the account under its target, all of them
taken over. -/
theorem shortfall_of_beyond (h : Weighted lot bid) (htarget : 0 ≤ target ∧ target ≤ 2 * SCALAR_7)
    (hexcess : excess = data.liabilityBase * target / SCALAR_7 - data.collateralBase)
    (hlot : rawOf lot ≠ 0) (hbid : rawOf bid ≠ 0) (hbeyond : recovered target lot bid < excess) :
    -slack bid ≤ shortfall data target lot bid 100 := by
  obtain ⟨-, hnear⟩ := abs_le.1 (recovery_bounds h htarget hlot hbid)
  obtain ⟨hexact, -⟩ := excess_bounds hexcess
  have hless : (recovered target lot bid : ℚ) < excess := by exact_mod_cast hbeyond
  rw [shortfall_eq]
  push_cast
  linarith

end Roundings

/-! ## The loop -/

section Loop

variable {collateral liabilities lot bid : List PositionValue} {percent maxPositions : Nat} {plan : LiquidationPlan}

/-- A plan of these positions: the first of each side, and all of them where the
pool allows so many. -/
structure Names (lot bid : List PositionValue) (maxPositions : Nat) (plan : LiquidationPlan) : Prop where
  lots : plan.lot <+: lot.map (·.asset)
  bids : plan.bid <+: bid.map (·.asset)
  whole : lot.length + bid.length ≤ max maxPositions 2 → plan.lot = lot.map (·.asset) ∧ plan.bid = bid.map (·.asset)

theorem boundedPlan_names (h : boundedPlan lot bid percent maxPositions = .ok plan) :
    Names lot bid maxPositions plan ∧ plan.percent.get = min (max percent 1) 100 := by
  have hpercent : 1 ≤ min (max percent 1) 100 ∧ min (max percent 1) 100 ≤ 100 := by omega
  unfold boundedPlan at h
  obtain ⟨taken, htaken, h⟩ := bind_ok_iff.1 h
  obtain ⟨taken', htaken', h⟩ := bind_ok_iff.1 h
  have hslice : ∀ {α : Type} {values taken : List α} {count : Nat}, sliceTo values count = .ok taken →
      taken = values.take count := by
    intro α values taken count heq
    unfold sliceTo at heq
    split at heq
    · exact (Except.ok.inj heq).symm
    · cases heq
  obtain rfl := hslice htaken
  obtain rfl := hslice htaken'
  rw [FillPercent.tryFrom, dif_pos hpercent] at h
  obtain rfl := pure_ok_iff.1 h
  refine ⟨⟨?_, ?_, fun hfits => ?_⟩, rfl⟩ <;> dsimp only
  · rw [List.map_take]
    exact List.take_prefix _ _
  · rw [List.map_take]
    exact List.take_prefix _ _
  · have htrim : trim (max maxPositions 2) lot.length bid.length = (lot.length, bid.length) := by
      rw [trim, if_neg (not_lt.2 hfits)]
    rw [htrim, List.take_length, List.take_length]
    exact ⟨rfl, rfl⟩

/-- How the loop ends: with the first selection that will do, or with everything,
where the last one says that its debts are not enough or its collateral is. -/
theorem selectLoop_ends {excess target : Int} {lotCount bidCount : Nat} (hlot : lotCount ≤ collateral.length)
    (hbid : bidCount ≤ liabilities.length)
    (h : selectLoop excess collateral liabilities target maxPositions lotCount bidCount = .ok plan) :
    (∃ n m percent, selectionPercent excess (collateral.take n) (liabilities.take m) target = .ok percent ∧ percent ≠ 0 ∧
      percent ≤ 100 ∧ boundedPlan (collateral.take n) (liabilities.take m) percent maxPositions = .ok plan) ∨
    ((∃ percent, 100 < percent ∧ selectionPercent excess collateral liabilities target = .ok percent) ∨
      ∃ m, selectionPercent excess collateral (liabilities.take m) target = .ok 0) ∧
      boundedPlan collateral liabilities 100 maxPositions = .ok plan := by
  induction hmeasure : (collateral.length - lotCount) + (liabilities.length - bidCount) using Nat.strongRecOn
    generalizing lotCount bidCount with
  | ind measure ih =>
    subst hmeasure
    rw [selectLoop, sliceTo_of_le hlot, sliceTo_of_le hbid] at h
    obtain ⟨lot, hlots, h⟩ := bind_ok_iff.1 h
    cases hlots
    obtain ⟨bid, hbids, h⟩ := bind_ok_iff.1 h
    cases hbids
    obtain ⟨percent, hpercent, h⟩ := bind_ok_iff.1 h
    rw [mapError_ok_iff] at hpercent
    by_cases hover : percent > 100
    · rw [if_pos hover] at h
      by_cases hbids : bidCount < liabilities.length
      · rw [dif_pos hbids] at h
        exact ih _ (by omega) hlot hbids h rfl
      rw [dif_neg hbids] at h
      by_cases hlots : lotCount < collateral.length
      · rw [dif_pos hlots] at h
        exact ih _ (by omega) hlots hbid h rfl
      rw [dif_neg hlots] at h
      rw [List.take_of_length_le (not_lt.1 hlots), List.take_of_length_le (not_lt.1 hbids)] at hpercent
      exact .inr ⟨.inl ⟨percent, hover, hpercent⟩, h⟩
    rw [if_neg hover] at h
    by_cases hzero : percent = 0
    · rw [if_pos hzero] at h
      subst hzero
      by_cases hlots : lotCount < collateral.length
      · rw [dif_pos hlots] at h
        exact ih _ (by omega) hlots hbid h rfl
      rw [dif_neg hlots] at h
      rw [List.take_of_length_le (not_lt.1 hlots)] at hpercent
      exact .inr ⟨.inr ⟨bidCount, hpercent⟩, h⟩
    rw [if_neg hzero] at h
    exact .inl ⟨lotCount, bidCount, percent, hpercent, hzero, not_lt.1 hover, h⟩

end Loop

/-! ## The plan -/

section Weights

variable {reserves : BTreeMap Nat Reserve} {prices : OraclePrices}

/-- Collateral's weight is never less than nothing. -/
theorem collateralValue_effective_nonneg {index : Nat} {amount : Int} {found : PositionValue} (hamount : 0 ≤ amount)
    (hrate : ∀ reserve, reserves[index]? = some reserve → 0 ≤ reserve.data.bRate)
    (h : collateralValue reserves prices (index, amount) = .ok found) : 0 ≤ found.effective := by
  simp only [collateralValue, bind_ok_iff, pure_ok_iff, Reserve.toEffectiveAssetFromBToken, Reserve.toAssetFromBToken] at h
  obtain ⟨r, hr, price, hprice, _, -, raw, -, effective, ⟨worth, hworth, heffective⟩, value, hvalue, rfl⟩ := h
  rw [mulFloor_eq SCALAR_12_pos] at hworth
  rw [mulFloor_eq SCALAR_7_pos] at heffective
  rw [mulFloor_eq r.scalar_pos] at hvalue
  rw [narrow_ok hvalue, narrow_ok heffective, narrow_ok hworth]
  have hworth0 : 0 ≤ amount * r.data.bRate / SCALAR_12 :=
    Int.ediv_nonneg (mul_nonneg hamount (hrate r (reserveAt_ok_iff.1 hr))) SCALAR_12_pos.le
  refine Int.ediv_nonneg (mul_nonneg (price_pos hprice).le (Int.ediv_nonneg (mul_nonneg hworth0 ?_) SCALAR_7_pos.le))
    r.scalar_pos.le
  exact Int.natCast_nonneg _

/-- A debt weighs no less than it is worth, and is worth no less than nothing. -/
theorem liabilityValue_raw_le {index : Nat} {amount : Int} {found : PositionValue} (hamount : 0 ≤ amount)
    (hrate : ∀ reserve, reserves[index]? = some reserve → 0 ≤ reserve.data.dRate ∧ (reserve.config.lFactor : Int) ≤ SCALAR_7)
    (h : liabilityValue reserves prices (index, amount) = .ok found) : 0 ≤ found.raw ∧ found.raw ≤ found.effective := by
  simp only [liabilityValue, bind_ok_iff, pure_ok_iff, Reserve.toEffectiveAssetFromDToken] at h
  obtain ⟨r, hr, price, hprice, worth, hworth, raw, hraw, effective, ⟨worth', hworth', heffective⟩, value, hvalue, rfl⟩ := h
  obtain rfl : worth = worth' := Except.ok.inj (hworth.symm.trans hworth')
  obtain ⟨hrate, hfactor⟩ := hrate r (reserveAt_ok_iff.1 hr)
  have hworth0 : 0 ≤ worth := mulCeil_nonneg SCALAR_12_pos hamount hrate hworth
  have hpositive : (0 : Int) < r.config.lFactor := by
    by_contra hneg
    have hzero : (r.config.lFactor : Int) = 0 := by omega
    rw [hzero] at heffective
    simp [divCeil, mulDiv] at heffective
  rw [divCeil_eq hpositive] at heffective
  rw [mulCeil_eq r.scalar_pos] at hraw hvalue
  have hle : worth ≤ effective := by
    rw [narrow_ok heffective]
    refine le_of_mul_le_mul_right ?_ hpositive
    exact (mul_le_mul_of_nonneg_left hfactor hworth0).trans (le_ceilDiv_mul hpositive)
  rw [narrow_ok hraw, narrow_ok hvalue]
  have hprice' := (price_pos hprice).le
  exact ⟨ceilDiv_nonneg r.scalar_pos (mul_nonneg hprice' hworth0),
    ceilDiv_mono r.scalar_pos (mul_le_mul_of_nonneg_left hle hprice')⟩

end Weights

section Plan

variable {snapshot : FullSnapshot} {reserves : BTreeMap Nat Reserve} {valuedAt : Nat} {positions : Positions}
  {account : String} {collateral liabilities : List PositionValue}

/-- A sound snapshot's positions weigh as positions do. -/
theorem PoolSnapshot.Sound.weighted {snapshot : PoolSnapshot} (h : snapshot.Sound)
    (hliable : ∀ (index : Nat) (reserve : Reserve), snapshot.reserves[index]? = some reserve →
      (reserve.config.lFactor : Int) ≤ SCALAR_7)
    (hreserves : snapshot.accruedReserves valuedAt = .ok reserves) (hpositions : snapshot.positions[account]? = some positions)
    (hvalues : positionValues reserves snapshot.prices positions = .ok (collateral, liabilities)) :
    Weighted collateral liabilities := by
  obtain ⟨held, owed, hheld, howed, rfl, rfl⟩ := positionValues_ok_iff.1 hvalues
  constructor
  · intro value hvalue
    obtain ⟨⟨index, amount⟩, hentry, -, hfound⟩ := hheld.mem value ((List.perm_insertionSort _ _).mem_iff.1 hvalue)
    have hamount := h.collateral account positions hpositions index amount
      (Std.ExtTreeMap.mem_toList_iff_getElem?_eq_some.1 hentry)
    have hrate := fun reserve (hreserve : reserves[index]? = some reserve) => h.accrued hreserves hreserve
    exact ⟨collateralValue_effective_nonneg hamount (fun reserve hreserve => (hrate reserve hreserve).1.bRate) hfound,
      collateralValue_effective_le hamount (fun reserve hreserve =>
        ⟨(hrate reserve hreserve).1.bRate, (hrate reserve hreserve).2⟩) hfound⟩
  · intro value hvalue
    obtain ⟨⟨index, amount⟩, hentry, -, hfound⟩ := howed.mem value ((List.perm_insertionSort _ _).mem_iff.1 hvalue)
    have hamount := h.liabilities account positions hpositions index
    rw [Std.ExtTreeMap.getD_eq_getD_getElem?, Std.ExtTreeMap.mem_toList_iff_getElem?_eq_some.1 hentry] at hamount
    refine liabilityValue_raw_le hamount (fun reserve hreserve => ?_) hfound
    obtain ⟨stored, hstored, haccrue⟩ := PoolSnapshot.accruedReserves_from hreserves hreserve
    refine ⟨(h.accrued hreserves hreserve).1.dRate, ?_⟩
    rw [Reserve.accrue_config haccrue]
    exact hliable index stored hstored

/-- A borrower that is liquidated is planned for from its own values. -/
theorem AuctioneerConfig.judge_liquidate {c : AuctioneerConfig} {plan : LiquidationPlan}
    (h : c.judge snapshot reserves valuedAt account = .ok (.liquidate plan)) :
    ∃ data positions collateral liabilities, snapshot.positionData account valuedAt = .ok (some data) ∧
      snapshot.positions[account]? = some positions ∧
      positionValues reserves snapshot.prices positions = .ok (collateral, liabilities) ∧
      planLiquidation data collateral liabilities c.targetHealthFactor snapshot.poolInstance.config.maxPositions =
        .ok (some plan) := by
  unfold judge at h
  obtain ⟨answer, hanswer, h⟩ := bind_ok_iff.1 h
  rw [mapError_ok_iff] at hanswer
  cases answer with
  | none => cases h
  | some data =>
    dsimp only at h
    split at h
    · cases h
    obtain ⟨health, -, h⟩ := bind_ok_iff.1 h
    cases health with
    | none => cases h
    | some health =>
      obtain ⟨normalized, -, h⟩ := bind_ok_iff.1 h
      split at h
      · cases h
      split at h
      · cases h
      next positions hpositions =>
      obtain ⟨⟨collateral, liabilities⟩, hvalues, h⟩ := bind_ok_iff.1 h
      obtain ⟨planned, hplanned, h⟩ := bind_ok_iff.1 h
      rw [mapError_ok_iff] at hvalues hplanned
      cases planned with
      | none => cases h
      | some plan' =>
        cases h
        exact ⟨data, positions, collateral, liabilities, hanswer, hpositions, hvalues, plannedOrError_ok_iff.1 hplanned⟩

end Plan

/-- What a plan aims at: the percent that leaves the account at its target, by a
selection whose collateral covers it; or everything, where that does not take
the account over its target, or where all its collateral covers no such percent
of some of its debts. -/
inductive Aimed (data : PositionData) (excess target : Int) (collateral liabilities : List PositionValue)
    (maxPositions : Nat) (plan : LiquidationPlan) : Prop
  | selected {lot bid : List PositionValue} : lot <+: collateral → bid <+: liabilities → Names lot bid maxPositions plan →
    (plan.percent.get : Int) = max (shareOf excess target lot bid) 1 →
    withdrawnOf lot bid (shareOf excess target lot bid) ≤ rawOf lot →
    |shortfall data target lot bid plan.percent.get| ≤ recovery target lot bid / 100 + 3 * slack bid →
    Aimed data excess target collateral liabilities maxPositions plan
  | everything : Names collateral liabilities maxPositions plan → plan.percent.get = 100 →
    -slack liabilities ≤ shortfall data target collateral liabilities 100 →
    Aimed data excess target collateral liabilities maxPositions plan
  | uncovered {bid : List PositionValue} : bid <+: liabilities → Names collateral liabilities maxPositions plan →
    plan.percent.get = 100 → Selected excess target collateral bid 0 →
    Aimed data excess target collateral liabilities maxPositions plan

theorem Weighted.of_subset {lot bid lot' bid' : List PositionValue} (h : Weighted lot bid) (hlot : lot' ⊆ lot)
    (hbid : bid' ⊆ bid) : Weighted lot' bid' :=
  ⟨fun value hvalue => h.lot value (hlot hvalue), fun value hvalue => h.bid value (hbid hvalue)⟩

theorem planLiquidation_aimed {data : PositionData} {target : Int} {collateral liabilities : List PositionValue}
    {maxPositions : Nat} {plan : LiquidationPlan} (hweighted : Weighted collateral liabilities)
    (htarget : 0 ≤ target ∧ target ≤ 2 * SCALAR_7)
    (h : planLiquidation data collateral liabilities target maxPositions = .ok (some plan)) :
    Aimed data (data.liabilityBase * target / SCALAR_7 - data.collateralBase) target collateral liabilities maxPositions
      plan := by
  unfold planLiquidation at h
  by_cases hempty : (liabilities.isEmpty || collateral.isEmpty) = true
  · rw [if_pos hempty] at h
    cases h
  rw [if_neg hempty] at h
  simp only [Bool.or_eq_true, List.isEmpty_iff, not_or] at hempty
  obtain ⟨limit, hlimit, h⟩ := bind_ok_iff.1 h
  rw [mapError_ok_iff, mulFloor_eq SCALAR_7_pos] at hlimit
  obtain ⟨excess, hexcess, h⟩ := bind_ok_iff.1 h
  rw [mapError_ok_iff] at hexcess
  obtain rfl : excess = data.liabilityBase * target / SCALAR_7 - data.collateralBase := by
    rw [narrow_ok hexcess, narrow_ok hlimit]
  set excess := data.liabilityBase * target / SCALAR_7 - data.collateralBase with hdef
  by_cases hnothing : excess ≤ 0
  · rw [if_pos hnothing] at h
    cases h
  rw [if_neg hnothing] at h
  have hpos : 0 < excess := not_le.1 hnothing
  obtain ⟨planned, hplanned, h⟩ := bind_ok_iff.1 h
  cases pure_ok_iff.1 h
  rcases selectLoop_ends (List.length_pos_of_ne_nil hempty.2) (List.length_pos_of_ne_nil hempty.1) hplanned with
    ⟨n, m, percent, hselected, hne, hle, hbounded⟩ | ⟨hlast, hbounded⟩
  · have htaken := hweighted.of_subset (List.take_subset n collateral) (List.take_subset m liabilities)
    obtain ⟨hnames, hpercent⟩ := boundedPlan_names hbounded
    obtain hpercent : plan.percent.get = percent := by omega
    cases selectionPercent_selected htaken hpos hselected with
    | worthless _ => exact absurd rfl hne
    | uncovered _ _ _ => exact absurd rfl hne
    | beyond _ _ hover _ => omega
    | found hlot hbid hlow hhigh hrecovered hshare hcovered =>
      refine .selected (List.take_prefix n collateral) (List.take_prefix m liabilities) hnames ?_ hcovered ?_
      · rw [hpercent, hshare]
      · rw [hpercent]
        exact shortfall_of_found htaken htarget hdef hpos hlot hbid ⟨hlow, hhigh⟩ hrecovered hshare
  · obtain ⟨hnames, hpercent⟩ := boundedPlan_names hbounded
    rcases hlast with ⟨percent, hover, hselected⟩ | ⟨m, hselected⟩
    · cases selectionPercent_selected hweighted hpos hselected with
      | worthless _ => omega
      | uncovered _ _ _ => omega
      | found _ _ _ hhigh _ _ _ => omega
      | beyond hlot hbid _ hbeyond =>
        exact .everything hnames hpercent (shortfall_of_beyond hweighted htarget hdef hlot hbid hbeyond)
    · have htaken := hweighted.of_subset (List.Subset.refl collateral) (List.take_subset m liabilities)
      exact .uncovered (List.take_prefix m liabilities) hnames hpercent (selectionPercent_selected htaken hpos hselected)

/-- **A plan aims at the target.** Of a sound pool whose liabilities weigh no less
than they are worth, and for a target of at most two, a borrower that is decided
to be liquidated is left by its selection, filled at the plan's percent where it
was made, within one percent of what the selection recovers from the target
health factor, on either side and up to the fixed point's roundings, by a
withdrawal that the selected collateral covers; and the plan names the selection
whole where the pool's cap allows it. Or the plan takes over everything: all the
debts do not take the account over its target, or all the collateral does not
cover the debts selected last. -/
theorem plan_aims_at_target (c : AuctioneerConfig) (snapshot : FullSnapshot) (valuedAt : Nat)
    (reserves : BTreeMap Nat Reserve) (account : String) (plan : LiquidationPlan) (hsound : snapshot.Sound)
    (hliable : ∀ (index : Nat) (reserve : Reserve), snapshot.reserves[index]? = some reserve →
      (reserve.config.lFactor : Int) ≤ SCALAR_7)
    (htarget : 0 ≤ c.targetHealthFactor ∧ c.targetHealthFactor ≤ 2 * SCALAR_7)
    (hreserves : snapshot.accruedReserves valuedAt = .ok reserves)
    (h : c.judge snapshot reserves valuedAt account = .ok (.liquidate plan)) :
    ∃ data positions collateral liabilities, snapshot.positionData account valuedAt = .ok (some data) ∧
      snapshot.positions[account]? = some positions ∧
      positionValues reserves snapshot.prices positions = .ok (collateral, liabilities) ∧
      Aimed data (data.liabilityBase * c.targetHealthFactor / SCALAR_7 - data.collateralBase) c.targetHealthFactor collateral
        liabilities snapshot.poolInstance.config.maxPositions plan := by
  obtain ⟨data, positions, collateral, liabilities, hdata, hpositions, hvalues, hplan⟩ :=
    AuctioneerConfig.judge_liquidate h
  have hweighted := hsound.weighted hliable hreserves hpositions hvalues
  exact ⟨data, positions, collateral, liabilities, hdata, hpositions, hvalues, planLiquidation_aimed hweighted htarget hplan⟩

/-- An answer that is a plan. -/
def isPlanned : Except AuctioneerError Decision → Bool
  | .ok (.liquidate _) => true
  | _ => false

theorem isPlanned_iff {answer : Except AuctioneerError Decision} :
    isPlanned answer = true ↔ ∃ plan, answer = .ok (.liquidate plan) := by
  cases answer with
  | error _ => simp [isPlanned]
  | ok decision => cases decision <;> simp [isPlanned]

/-- The sample borrower's plan. -/
theorem plan_aims_at_target_short : ∃ plan data collateral liabilities,
    AuctioneerConfig.judge ⟨9980000, 10600000, ∅⟩ shortSnapshot sampleReserves 0 "borrower" = .ok (.liquidate plan) ∧
      shortSnapshot.positionData "borrower" 0 = .ok (some data) ∧
      Aimed data (data.liabilityBase * 10600000 / SCALAR_7 - data.collateralBase) 10600000 collateral liabilities 4 plan := by
  have hplanned : isPlanned (AuctioneerConfig.judge ⟨9980000, 10600000, ∅⟩ shortSnapshot sampleReserves 0 "borrower") =
      true := by decide +kernel
  obtain ⟨plan, hjudge⟩ := isPlanned_iff.1 hplanned
  have hliable : ∀ (index : Nat) (reserve : Reserve), shortSnapshot.reserves[index]? = some reserve →
      (reserve.config.lFactor : Int) ≤ SCALAR_7 := by
    intro index reserve h
    rcases sampleReserves_cases h with ⟨-, rfl⟩ | ⟨-, rfl⟩ <;> decide
  obtain ⟨data, _, collateral, liabilities, hdata, -, -, haimed⟩ := plan_aims_at_target ⟨9980000, 10600000, ∅⟩ shortSnapshot
    0 sampleReserves "borrower" plan shortSnapshot_sound hliable (by decide) rfl hjudge
  exact ⟨plan, data, collateral, liabilities, hjudge, hdata, haimed⟩

end BlendLiquidator
