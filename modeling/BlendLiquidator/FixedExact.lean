/-
The four operations round the exact quotient (`fixed_exact`), for every sign
and at the limits of `i128`.

Both paths move the sign off the divisor and then divide by something
positive, where Euclidean division is the floor (`exactQuotient_eq`). The
narrow one divides an `i128` and stays in range; the wide one is taken for a
product past `i128` and for the two operands that cannot be negated.

`Fixed` computes the wide path in `Int`. `mulDiv256` is the source's own
routine with each `I256` operation checked too: none of them ever leaves 256
bits, so nothing there panics or wraps (`mulDiv256_eq`).
-/
import BlendLiquidator.FixedFacts
import Mathlib.Data.Rat.Floor

namespace BlendLiquidator

open Results IntDiv

/-! ## The exact quotient -/

/-- A rational rounded to an integer. -/
def Rounding.round : Rounding → ℚ → Int
  | .floor, q => ⌊q⌋
  | .ceil, q => ⌈q⌉

/-- What an operation that divides `r` by `z` is to answer. -/
structure ExactAnswer (rounding : Rounding) (r z : Int) (answer : Except MathError Int) : Prop where
  ok : ∀ v, answer = .ok v ↔ z ≠ 0 ∧ FitsI128 v ∧ v = rounding.round (r / z)
  divisionByZero : answer = .error .divisionByZero ↔ z = 0
  overflow : answer = .error .overflow ↔ z ≠ 0 ∧ ¬FitsI128 (rounding.round (r / z))

theorem exactQuotient_eq {r z : Int} {rounding : Rounding} (hz : 0 < z) :
    exactQuotient r z rounding = rounding.round (r / z) := by
  obtain ⟨d, rfl⟩ := Int.eq_ofNat_of_zero_le hz.le
  cases rounding with
  | floor => exact (Rat.floor_intCast_div_natCast r d).symm
  | ceil => exact (Rat.ceil_intCast_div_natCast r d).symm

/-- The sign may stand on either side. -/
theorem round_neg (r z : Int) (rounding : Rounding) :
    rounding.round (((-r : Int) : ℚ) / ((-z : Int) : ℚ)) = rounding.round (r / z) := by
  rw [Int.cast_neg, Int.cast_neg, neg_div_neg_eq]

theorem narrow_of_fits {x : Int} (h : FitsI128 x) : narrow x = .ok x := narrow_ok_iff.2 ⟨rfl, h⟩

theorem narrow_of_not_fits {x : Int} (h : ¬FitsI128 x) : narrow x = .error .overflow := by
  simp only [narrow, checked, if_neg (show ¬(i128Min ≤ x ∧ x ≤ i128Max) from h)]

/-- Narrowing the rounded quotient is the right answer. -/
theorem ExactAnswer.narrow {r z : Int} {rounding : Rounding} (hz : z ≠ 0) :
    ExactAnswer rounding r z (narrow (rounding.round (r / z))) where
  ok := fun v => by
    rw [narrow_ok_iff]
    constructor
    · rintro ⟨rfl, hfits⟩
      exact ⟨hz, hfits, rfl⟩
    · rintro ⟨-, hfits, rfl⟩
      exact ⟨rfl, hfits⟩
  divisionByZero := by
    by_cases hfits : FitsI128 (rounding.round (r / z))
    · simp [narrow_of_fits hfits, hz]
    · simp [narrow_of_not_fits hfits, hz]
  overflow := by
    by_cases hfits : FitsI128 (rounding.round (r / z))
    · simp [narrow_of_fits hfits, hfits]
    · simp [narrow_of_not_fits hfits, hfits, hz]

/-! ## The two paths -/

theorem divideWide_round {r z : Int} {rounding : Rounding} (hz : z ≠ 0) :
    divideWide r z rounding = narrow (rounding.round (r / z)) := by
  rcases Int.lt_or_gt_of_ne hz with hneg | hpos
  · have hflip : divideWide r z rounding = divideWide (-r) (-z) rounding := by
      simp only [divideWide, if_pos hneg, if_neg (show ¬-z < 0 by omega)]
    rw [hflip, divideWide_eq (by omega), exactQuotient_eq (by omega), round_neg]
  · rw [divideWide_eq hpos, exactQuotient_eq hpos]

theorem divideNarrow_round {r z : Int} {rounding : Rounding} (hr : FitsI128 r) (hz : FitsI128 z) (hne : z ≠ 0) :
    divideNarrow r z rounding = narrow (rounding.round (r / z)) := by
  by_cases hmin : r = i128Min ∨ z = i128Min
  · rw [divideNarrow, if_pos hmin, divideWide_round hne]
  rcases Int.lt_or_gt_of_ne hne with hneg | hpos
  · -- Neither operand is the least `i128`, so both can be negated.
    have hlimits : i128Max = -i128Min - 1 := by decide
    have hr' : FitsI128 (-r) := by unfold FitsI128 at hr ⊢; omega
    have hz' : FitsI128 (-z) := by unfold FitsI128 at hz ⊢; omega
    have hflip : divideNarrow r z rounding = divideNarrow (-r) (-z) rounding := by
      have hr0 : -r ≠ i128Min := by unfold FitsI128 at hr; omega
      have hz0 : -z ≠ i128Min := by unfold FitsI128 at hz; omega
      simp only [divideNarrow, normalise, if_neg hmin, if_neg (show ¬(-r = i128Min ∨ -z = i128Min) by omega),
        if_pos hneg, if_neg (show ¬-z < 0 by omega), narrow_of_fits hr', narrow_of_fits hz', bind, Except.bind, pure,
        Except.pure]
    rw [hflip, divideNarrow_eq (by omega) hr'.1 hr'.2, exactQuotient_eq (by omega), round_neg]
  · rw [divideNarrow_eq hpos hr.1 hr.2, exactQuotient_eq hpos]

theorem checked_eq_some_iff {x y : Int} : checked x = some y ↔ x = y ∧ FitsI128 x := by
  unfold checked FitsI128
  split <;> simp [*]

theorem mulDiv_exact {x y z : Int} {rounding : Rounding} (hz : FitsI128 z) :
    ExactAnswer rounding (x * y) z (mulDiv x y z rounding) := by
  by_cases hne : z = 0
  · subst hne
    simp only [mulDiv, if_pos]
    exact ⟨by simp, by simp, by simp⟩
  have hmul : mulDiv x y z rounding = narrow (rounding.round ((x * y : Int) / z)) := by
    rw [mulDiv, if_neg hne]
    split
    · next product hproduct =>
      obtain ⟨rfl, hfits⟩ := checked_eq_some_iff.1 hproduct
      exact divideNarrow_round hfits hz hne
    · exact divideWide_round hne
  rw [hmul]
  exact .narrow hne

/-! ## The wide path in 256 bits -/

/-- A 256-bit result, if it is one. -/
def wide (x : Int) : Option Int := if -2 ^ 255 ≤ x ∧ x < 2 ^ 255 then some x else none

/-- `divide_wide` with its assertion and each operation checked: `none` is a
panic, or a wrapped value where overflow is not caught. -/
def divideWide256 (r z : Int) (rounding : Rounding) : Option (Except MathError Int) := do
  guard (z ≠ 0)
  let (r, z) ← if z < 0 then do pure (← wide (-r), ← wide (-z)) else pure (r, z)
  let quotient ← wide (r / z)
  let quotient ← match rounding with
    | .floor => some quotient
    | .ceil => if r % z = 0 then some quotient else wide (quotient + 1)
  pure (narrow quotient)

/-- `mul_div` on that path. -/
def mulDiv256 (x y z : Int) (rounding : Rounding) : Option (Except MathError Int) :=
  if z = 0 then
    some (.error .divisionByZero)
  else
    match checked (x * y) with
    | some product =>
      if product = i128Min ∨ z = i128Min then divideWide256 product z rounding
      else some (divideNarrow product z rounding)
    | none => do divideWide256 (← wide (x * y)) z rounding

theorem wide_eq {x : Int} (h : x.natAbs ≤ 2 ^ 254) : wide x = some x := by
  rw [wide, if_pos]
  omega

theorem FitsI128.natAbs_le {x : Int} (h : FitsI128 x) : x.natAbs ≤ 2 ^ 127 := by
  simp only [FitsI128, i128Min, i128Max] at h
  omega

/-- A quotient is no larger than what is divided, and its ceiling by one. -/
theorem divideWide256_pos {r z : Int} {rounding : Rounding} (hr : r.natAbs ≤ 2 ^ 254) (hz : 0 < z) :
    divideWide256 r z rounding = some (divideWide r z rounding) := by
  have hquotient : (r / z).natAbs ≤ 2 ^ 254 := (Int.natAbs_ediv_le_natAbs r z).trans hr
  have hnext : wide (r / z + 1) = some (r / z + 1) := by
    rw [wide, if_pos]
    omega
  simp only [divideWide256, divideWide, guard, if_pos hz.ne', if_neg (show ¬z < 0 by omega), wide_eq hquotient, pure,
    bind, Option.bind]
  cases rounding with
  | floor => rfl
  | ceil =>
    by_cases hrem : r % z = 0
    · simp only [if_pos hrem]
    · simp only [if_neg hrem, hnext]

theorem divideWide256_eq {r z : Int} {rounding : Rounding} (hr : r.natAbs ≤ 2 ^ 254) (hz : FitsI128 z) (hne : z ≠ 0) :
    divideWide256 r z rounding = some (divideWide r z rounding) := by
  rcases Int.lt_or_gt_of_ne hne with hneg | hpos
  · have hz' := hz.natAbs_le
    have hflip : divideWide256 r z rounding = divideWide256 (-r) (-z) rounding := by
      simp only [divideWide256, guard, if_pos hne, if_pos (show -z ≠ 0 by omega), if_pos hneg,
        if_neg (show ¬-z < 0 by omega), wide_eq (show (-r).natAbs ≤ 2 ^ 254 by omega),
        wide_eq (show (-z).natAbs ≤ 2 ^ 254 by omega), pure, bind, Option.bind]
    rw [hflip, divideWide256_pos (by omega) (by omega)]
    simp only [divideWide, if_pos hneg, if_neg (show ¬-z < 0 by omega)]
  · exact divideWide256_pos hr hpos

/-- **Nothing leaves 256 bits.** -/
theorem mulDiv256_eq {x y z : Int} (rounding : Rounding) (hx : FitsI128 x) (hy : FitsI128 y) (hz : FitsI128 z) :
    mulDiv256 x y z rounding = some (mulDiv x y z rounding) := by
  by_cases hne : z = 0
  · rw [mulDiv256, mulDiv, if_pos hne, if_pos hne]
  have hproduct : (x * y).natAbs ≤ 2 ^ 254 := by
    rw [Int.natAbs_mul]
    calc x.natAbs * y.natAbs ≤ 2 ^ 127 * 2 ^ 127 := Nat.mul_le_mul hx.natAbs_le hy.natAbs_le
      _ = 2 ^ 254 := by rw [← Nat.pow_add]
  rw [mulDiv256, mulDiv, if_neg hne, if_neg hne]
  cases hchecked : checked (x * y) with
  | none =>
    simp only [wide_eq hproduct, bind, Option.bind]
    exact divideWide256_eq hproduct hz hne
  | some product =>
    obtain ⟨rfl, -⟩ := checked_eq_some_iff.1 hchecked
    by_cases hmin : x * y = i128Min ∨ z = i128Min
    · simp only [if_pos hmin, divideNarrow]
      exact divideWide256_eq hproduct hz hne
    · simp only [if_neg hmin]

/-- **The four operations are exact**, on every `i128` and with every
intermediate value of the wide path a 256-bit one. -/
theorem fixed_exact (x y z : Int) (hx : FitsI128 x) (hy : FitsI128 y) (hz : FitsI128 z) :
    ExactAnswer .floor (x * y) z (mulFloor x y z) ∧ ExactAnswer .ceil (x * y) z (mulCeil x y z) ∧
      ExactAnswer .floor (x * z) y (divFloor x y z) ∧ ExactAnswer .ceil (x * z) y (divCeil x y z) ∧
      ∀ rounding, mulDiv256 x y z rounding = some (mulDiv x y z rounding) ∧
        mulDiv256 x z y rounding = some (mulDiv x z y rounding) :=
  ⟨mulDiv_exact hz, mulDiv_exact hz, mulDiv_exact hy, mulDiv_exact hy, fun rounding =>
    ⟨mulDiv256_eq rounding hx hy hz, mulDiv256_eq rounding hx hz hy⟩⟩

example : mulFloor 1 1 i128Min = .ok (-1) ∧ mulCeil 1 1 i128Min = .ok 0 := by decide

/-- At the lower limit: `i128::MIN * i128::MIN / i128::MIN` needs 256 bits and
the sign of the divisor moved. -/
theorem fixed_exact_min :
    (mulFloor i128Min i128Min i128Min = .ok i128Min ∧ FitsI128 i128Min) ∧
      ExactAnswer .floor (i128Min * i128Min) i128Min (mulFloor i128Min i128Min i128Min) :=
  have hmin : FitsI128 i128Min := ⟨by decide, by decide⟩
  ⟨⟨by decide, hmin⟩, (fixed_exact i128Min i128Min i128Min hmin hmin hmin).1⟩

end BlendLiquidator
