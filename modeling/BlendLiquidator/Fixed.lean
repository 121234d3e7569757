/-
Checked fixed-point arithmetic with the contract's rounding (`math/fixed.rs`).

An `i128` is an `Int`, and every operation the source checks is checked
here: a result outside `i128Min..=i128Max` is `overflow`. The 256-bit path
never overflows on the product of two `i128`s, so its arithmetic is `Int`'s
own and only the quotient is narrowed. `x.div_euclid(z)` and
`x.rem_euclid(z)` are `Int`'s `/` and `%`.
-/
import BlendLiquidator.IntDiv

namespace BlendLiquidator

def i128Min : Int := -2 ^ 127
def i128Max : Int := 2 ^ 127 - 1

/-- Scalar for 7-decimal values: factors, utilisation, XLM-style amounts. -/
def SCALAR_7 : Int := 10000000
/-- Scalar for 12-decimal values: `b_rate` and `d_rate`. -/
def SCALAR_12 : Int := 1000000000000
theorem SCALAR_7_eq : SCALAR_7 = 10 ^ 7 := rfl

/-- Seconds in a year, the accrual time base. -/
def SECONDS_PER_YEAR : Int := 31536000

inductive MathError
  | divisionByZero
  | overflow
  | invalidInput (what : String)
  | missingReserve (index : Nat)
  | missingPrice (asset : String)
  deriving Repr, DecidableEq

/-- `Option`-valued checked arithmetic: the exact result when an `i128`
holds it (`checked_add`, `checked_sub`, `checked_mul`, `checked_neg`). -/
def checked (x : Int) : Option Int :=
  if i128Min ≤ x ∧ x ≤ i128Max then some x else none

/-- The same with the source's usual continuation, `.ok_or(Overflow)?`;
also `i128::try_from` of a wider integer. -/
def narrow (x : Int) : Except MathError Int :=
  match checked x with
  | some x => .ok x
  | none => .error .overflow

inductive Rounding
  | floor
  | ceil
  deriving Repr, DecidableEq

/-- The 256-bit path: the product of two `i128`s always fits, only the
quotient may not. -/
def divideWide (r z : Int) (rounding : Rounding) : Except MathError Int :=
  let (r, z) := if z < 0 then (-r, -z) else (r, z)
  let quotient := r / z
  let quotient := match rounding with
    | .floor => quotient
    | .ceil => if r % z = 0 then quotient else quotient + 1
  narrow quotient

/-- The sign moved off the divisor, checked. -/
def normalise (r z : Int) : Except MathError (Int × Int) :=
  if z < 0 then do
    let r ← narrow (-r)
    let z ← narrow (-z)
    pure (r, z)
  else
    .ok (r, z)

/-- Division with a sign-normalised divisor so the Euclidean quotient is a
true floor. `i128::MIN` has no positive counterpart, so the two cases that
would negate it go through the wide path. -/
def divideNarrow (r z : Int) (rounding : Rounding) : Except MathError Int :=
  if r = i128Min ∨ z = i128Min then
    divideWide r z rounding
  else do
    let (r, z) ← normalise r z
    let quotient ← narrow (r / z)
    match rounding with
    | .floor => pure quotient
    | .ceil => if r % z = 0 then pure quotient else narrow (quotient + 1)

def mulDiv (x y z : Int) (rounding : Rounding) : Except MathError Int :=
  if z = 0 then
    .error .divisionByZero
  else
    match checked (x * y) with
    | some product => divideNarrow product z rounding
    | none => divideWide (x * y) z rounding

/-- `floor(x * y / denominator)`. -/
def mulFloor (x y denominator : Int) : Except MathError Int := mulDiv x y denominator .floor

/-- `ceil(x * y / denominator)`. -/
def mulCeil (x y denominator : Int) : Except MathError Int := mulDiv x y denominator .ceil

/-- `floor(x * denominator / y)`. -/
def divFloor (x y denominator : Int) : Except MathError Int := mulDiv x denominator y .floor

/-- `ceil(x * denominator / y)`. -/
def divCeil (x y denominator : Int) : Except MathError Int := mulDiv x denominator y .ceil

/-- `10^decimals`, the scalar of a token with that many decimals. -/
def pow10 (decimals : Nat) : Except MathError Int := narrow (10 ^ decimals)

end BlendLiquidator
