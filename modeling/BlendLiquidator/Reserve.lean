/-
Reserve state and the interest accrual the contract performs on every load
(`math/reserve.rs`).

Rates are 12 decimals, factors and utilisation 7 decimals, `ir_mod` 7
decimals. `u32` configuration values are natural numbers. A `Reserve`
carries what `Reserve::new` establishes and nothing later changes: its
scalar is `10^decimals`.
-/
import Std.Data.ExtTreeMap
import BlendLiquidator.Fixed

namespace BlendLiquidator

/-- A `BTreeMap`: a finite map whose iteration is in key order. -/
abbrev BTreeMap (κ : Type) (ν : Type) [Ord κ] := Std.ExtTreeMap κ ν compare

/-- The `ResConfig` ledger entry. -/
structure ReserveConfig where
  index : Nat
  decimals : Nat
  cFactor : Nat
  lFactor : Nat
  util : Nat
  maxUtil : Nat
  rBase : Nat
  rOne : Nat
  rTwo : Nat
  rThree : Nat
  reactivity : Nat
  supplyCap : Int
  enabled : Bool
  deriving Repr, DecidableEq

/-- The `ResData` ledger entry. -/
structure ReserveData where
  dRate : Int
  bRate : Int
  irMod : Int
  bSupply : Int
  dSupply : Int
  backstopCredit : Int
  lastTime : Nat
  deriving Repr, DecidableEq

/-- A reserve as the contract's `Reserve` struct. -/
structure Reserve where
  asset : String
  config : ReserveConfig
  data : ReserveData
  scalar : Int
  scalar_eq : scalar = 10 ^ config.decimals
  deriving DecidableEq

def UTIL_95 : Int := 9500000
def UTIL_5 : Int := 500000
def IR_MOD_MAX : Int := 10 * SCALAR_7
def IR_MOD_MIN : Int := SCALAR_7 / 10

namespace Reserve

/-- Builds a reserve, deriving `scalar` from `config.decimals`. -/
def new (asset : String) (config : ReserveConfig) (data : ReserveData) : Except MathError Reserve := do
  let _ ← pow10 config.decimals
  pure { asset, config, data, scalar := 10 ^ config.decimals, scalar_eq := rfl }

/-- d-tokens to underlying, rounded up (the borrower owes the ceiling). -/
def toAssetFromDToken (r : Reserve) (dTokens : Int) : Except MathError Int :=
  mulCeil dTokens r.data.dRate SCALAR_12

/-- b-tokens to underlying, rounded down (the supplier gets the floor). -/
def toAssetFromBToken (r : Reserve) (bTokens : Int) : Except MathError Int :=
  mulFloor bTokens r.data.bRate SCALAR_12

/-- Total borrowed underlying: `d_supply` at `d_rate`, rounded up. -/
def totalLiabilities (r : Reserve) : Except MathError Int := r.toAssetFromDToken r.data.dSupply

/-- Total supplied underlying: `b_supply` at `b_rate`, rounded down. -/
def totalSupply (r : Reserve) : Except MathError Int := r.toAssetFromBToken r.data.bSupply

/-- Utilisation at 7 decimals, capped at 100% so the rate curve stays fair. -/
def utilization (r : Reserve) : Except MathError Int := do
  let liabilities ← r.totalLiabilities
  let supply ← r.totalSupply
  if liabilities = 0 then
    pure 0
  else if liabilities ≥ supply then
    pure SCALAR_7
  else
    divCeil liabilities supply SCALAR_7

/-- d-tokens to effective liability: underlying divided by `l_factor`, up. -/
def toEffectiveAssetFromDToken (r : Reserve) (dTokens : Int) : Except MathError Int := do
  let assets ← r.toAssetFromDToken dTokens
  divCeil assets r.config.lFactor SCALAR_7

/-- b-tokens to effective collateral: underlying times `c_factor`, down. -/
def toEffectiveAssetFromBToken (r : Reserve) (bTokens : Int) : Except MathError Int := do
  let assets ← r.toAssetFromBToken bTokens
  mulFloor assets r.config.cFactor SCALAR_7

/-- Underlying to d-tokens, rounded up. -/
def toDTokenUp (r : Reserve) (amount : Int) : Except MathError Int :=
  divCeil amount r.data.dRate SCALAR_12

/-- Underlying to d-tokens, rounded down. -/
def toDTokenDown (r : Reserve) (amount : Int) : Except MathError Int :=
  divFloor amount r.data.dRate SCALAR_12

/-- Underlying to b-tokens, rounded up. -/
def toBTokenUp (r : Reserve) (amount : Int) : Except MathError Int :=
  divCeil amount r.data.bRate SCALAR_12

/-- Underlying to b-tokens, rounded down. -/
def toBTokenDown (r : Reserve) (amount : Int) : Except MathError Int :=
  divFloor amount r.data.bRate SCALAR_12

end Reserve

/-- The current interest rate's three branches: under the target
utilisation, between it and 95%, and above. -/
def currentRate (config : ReserveConfig) (curUtil irMod : Int) : Except MathError Int := do
  let targetUtil : Int := config.util
  if curUtil ≤ targetUtil then
    let utilScalar ← divCeil curUtil targetUtil SCALAR_7
    let baseRate ← narrow ((← mulCeil utilScalar config.rOne SCALAR_7) + config.rBase)
    mulCeil baseRate irMod SCALAR_7
  else if curUtil ≤ UTIL_95 then
    let utilDif ← narrow (curUtil - targetUtil)
    let utilRange ← narrow (UTIL_95 - targetUtil)
    let utilScalar ← divCeil utilDif utilRange SCALAR_7
    let baseRate ← narrow ((← mulCeil utilScalar config.rTwo SCALAR_7) + config.rOne)
    let baseRate ← narrow (baseRate + config.rBase)
    mulCeil baseRate irMod SCALAR_7
  else
    let utilDif ← narrow (curUtil - UTIL_95)
    let utilScalar ← divCeil utilDif UTIL_5 SCALAR_7
    let extraRate ← mulCeil utilScalar config.rThree SCALAR_7
    let rateSum ← narrow ((config.rTwo : Int) + config.rOne)
    let rateSum ← narrow (rateSum + config.rBase)
    let intersection ← mulCeil irMod rateSum SCALAR_7
    narrow (extraRate + intersection)

/-- The next interest-rate modifier: moved by the utilisation's error over
the elapsed time, clamped on the side it moved to. -/
def nextIrMod (config : ReserveConfig) (utilDif irMod deltaTime : Int) : Except MathError Int := do
  let utilError ← narrow (deltaTime * utilDif)
  if utilDif ≥ 0 then
    let rateDif ← mulFloor utilError config.reactivity SCALAR_7
    return min (← narrow (irMod + rateDif)) IR_MOD_MAX
  else
    let rateDif ← mulCeil utilError config.reactivity SCALAR_7
    return max (← narrow (irMod + rateDif)) IR_MOD_MIN

/-- The contract's `interest::calc_accrual`: the loan accrual factor at 12
decimals and the next interest-rate modifier at 7 decimals. -/
def calcAccrual (config : ReserveConfig) (curUtil irMod : Int) (lastTime now : Nat) :
    Except MathError (Int × Int) := do
  let curIr ← currentRate config curUtil irMod
  if now < lastTime then
    throw (.invalidInput "now is before last_time")
  let deltaTime : Int := (now : Int) - lastTime
  if deltaTime < 1 then
    throw (.invalidInput "no time elapsed")
  let utilDif ← narrow (curUtil - (config.util : Int))
  let newIrMod ← nextIrMod config utilDif irMod deltaTime
  let timeWeight := (← narrow (deltaTime * SCALAR_12)) / SECONDS_PER_YEAR
  let accrual ← narrow (SCALAR_12 + (← mulCeil timeWeight curIr SCALAR_7))
  pure (accrual, newIrMod)

/-- The backstop's share of what accrued: nothing when it takes no rate. -/
def backstopShare (accrued : Int) (bstopRate : Nat) : Except MathError Int :=
  if bstopRate > 0 then mulFloor accrued bstopRate SCALAR_7 else .ok 0

/-- What accrual does once utilisation is positive: `ir_mod`, `d_rate`, the
backstop credit and `b_rate`. -/
def Reserve.accrueInterest (r : Reserve) (curUtil : Int) (bstopRate now : Nat) :
    Except MathError Reserve := do
  let (loanAccrual, newIrMod) ← calcAccrual r.config curUtil r.data.irMod r.data.lastTime now
  let preUpdateSupply ← r.totalSupply
  let preUpdateLiabilities ← r.totalLiabilities
  let dRate ← mulCeil loanAccrual r.data.dRate SCALAR_12
  let r := { r with data := { r.data with irMod := newIrMod, dRate } }
  let accrued ← narrow ((← r.totalLiabilities) - preUpdateLiabilities)
  if accrued > 0 then
    let newBackstopCredit ← backstopShare accrued bstopRate
    -- With no rate the source leaves the credit alone; adding the zero share
    -- to it is the same number.
    let backstopCredit ←  narrow (r.data.backstopCredit + newBackstopCredit)
    let supplyAfter ← narrow ((← narrow (preUpdateSupply + accrued)) - newBackstopCredit)
    let bRate ← divFloor supplyAfter r.data.bSupply SCALAR_12
    return { r with data := { r.data with backstopCredit, bRate, lastTime := now } }
  return { r with data := { r.data with lastTime := now } }

/-- Accrues interest to `now` exactly as the contract's `Reserve::load`:
no-op within the same second; time-stamp only when nothing is supplied or
utilisation is zero. -/
def Reserve.accrue (r : Reserve) (bstopRate now : Nat) : Except MathError Reserve := do
  if now = r.data.lastTime then
    return r
  if now < r.data.lastTime then
    throw (.invalidInput "now is before last_time")
  if r.data.bSupply = 0 then
    return { r with data := { r.data with lastTime := now } }
  let curUtil ← r.utilization
  if curUtil = 0 then
    return { r with data := { r.data with lastTime := now } }
  r.accrueInterest curUtil bstopRate now

end BlendLiquidator
