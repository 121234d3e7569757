/-
The auctioneer's arithmetic (`math/liquidation.rs`): what an auction should
name, and how much of the borrower's liability it should take.

A slice past a list's end panics in the source, so it is a fault of its own
here, beside the checked arithmetic's.
-/
import Mathlib.Data.List.Sort
import BlendLiquidator.Fill

namespace BlendLiquidator

/-- One of a borrower's positions, valued at a ledger. -/
structure PositionValue where
  index : Nat
  asset : String
  raw : Int
  effective : Int
  deriving Repr, DecidableEq

/-- The auction to create. -/
structure LiquidationPlan where
  bid : List String
  lot : List String
  percent : FillPercent
  deriving DecidableEq

/-! ## Position values -/

/-- One collateral entry of `position_values`' first loop. -/
def pushCollateral (reserves : BTreeMap Nat Reserve) (prices : OraclePrices) (values : List PositionValue)
    (entry : Nat × Int) : Except MathError (List PositionValue) := do
  let (index, bTokens) := entry
  if bTokens = 0 then
    return values
  let reserve ← reserveAt reserves index
  let price ← prices.price reserve.asset
  let raw ← mulFloor price (← reserve.toAssetFromBToken bTokens) reserve.scalar
  let effective ← mulFloor price (← reserve.toEffectiveAssetFromBToken bTokens) reserve.scalar
  return values ++ [{ index, asset := reserve.asset, raw, effective }]

/-- One liability entry of its second loop. -/
def pushLiability (reserves : BTreeMap Nat Reserve) (prices : OraclePrices) (values : List PositionValue)
    (entry : Nat × Int) : Except MathError (List PositionValue) := do
  let (index, dTokens) := entry
  if dTokens = 0 then
    return values
  let reserve ← reserveAt reserves index
  let price ← prices.price reserve.asset
  let raw ← mulCeil price (← reserve.toAssetFromDToken dTokens) reserve.scalar
  let effective ← mulCeil price (← reserve.toEffectiveAssetFromDToken dTokens) reserve.scalar
  return values ++ [{ index, asset := reserve.asset, raw, effective }]

/-- Largest first, with the reserve index breaking a tie. -/
def LargestFirst (left right : PositionValue) : Prop :=
  right.effective < left.effective ∨ right.effective = left.effective ∧ left.index ≤ right.index

instance (left right : PositionValue) : Decidable (LargestFirst left right) := inferInstanceAs (Decidable (_ ∨ _))

/-- Every non-zero position valued, collateral and liabilities separately, each
largest first. -/
def positionValues (reserves : BTreeMap Nat Reserve) (prices : OraclePrices) (positions : Positions) :
    Except MathError (List PositionValue × List PositionValue) := do
  let collateral ← positions.collateral.toList.foldlM (pushCollateral reserves prices) []
  let liabilities ← positions.liabilities.toList.foldlM (pushLiability reserves prices) []
  pure (collateral.insertionSort LargestFirst, liabilities.insertionSort LargestFirst)

/-! ## The selection -/

/-- Raw and effective totals of a selection. -/
def totals (values : List PositionValue) : Except MathError (Int × Int) :=
  values.foldlM (fun total value => do
    let raw ← narrow (total.1 + value.raw)
    let effective ← narrow (total.2 + value.effective)
    pure (raw, effective)) (0, 0)

/-- `u32::try_from(percent).unwrap_or(u32::MAX)`. -/
def saturatingU32 (x : Int) : Nat := if 0 ≤ x ∧ x ≤ u32Max then x.toNat else u32Max

/-- The percent for one selection, `0` where its collateral cannot cover the
withdrawal, over 100 where its liabilities are not enough. -/
def selectionPercent (excess : Int) (collateral liabilities : List PositionValue) (targetHealth : Int) :
    Except MathError Nat := do
  let (rawCollateral, effectiveCollateral) ← totals collateral
  let (rawLiabilities, effectiveLiabilities) ← totals liabilities
  if rawCollateral = 0 ∨ rawLiabilities = 0 ∨ effectiveLiabilities = 0 then
    return 0
  let cf ← divFloor effectiveCollateral rawCollateral SCALAR_7
  let lf ← divFloor effectiveLiabilities rawLiabilities SCALAR_7
  if cf = 0 ∨ lf = 0 then
    return 0
  let ratio ← divFloor cf lf SCALAR_7
  -- `checked_div` rounds towards zero
  let incentive ← narrow (SCALAR_7 + (← narrow ((← narrow (SCALAR_7 - ratio)).tdiv 2)))
  let recovered ← narrow ((← mulFloor lf targetHealth SCALAR_7) - (← mulFloor incentive cf SCALAR_7))
  if recovered ≤ 0 then
    return 101
  let denominator ← mulFloor recovered rawLiabilities SCALAR_7
  if denominator ≤ 0 then
    return 101
  let percent := saturatingU32 (← mulFloor excess 100 denominator)
  if percent > 100 then
    return percent
  let taken ← mulFloor rawLiabilities percent 100
  let withdrawn ← mulFloor taken incentive SCALAR_7
  if withdrawn > rawCollateral then
    return 0
  pure (max percent 1)

/-- How a plan can fail: its arithmetic, or a slice past the end. -/
inductive PlanFault
  | math (error : MathError)
  | outOfRange
  deriving Repr, DecidableEq

/-- `&values[..count]`. -/
def sliceTo {α : Type} (values : List α) (count : Nat) : Except PlanFault (List α) :=
  if count ≤ values.length then .ok (values.take count) else .error .outOfRange

/-- The counts trimmed to a cap: the side with more to give loses its smallest,
never below one. -/
def trim (cap lotCount bidCount : Nat) : Nat × Nat :=
  if lotCount + bidCount > cap then
    if lotCount ≥ bidCount ∧ lotCount > 1 then
      trim cap (lotCount - 1) bidCount
    else if bidCount > 1 then
      trim cap lotCount (bidCount - 1)
    else
      (lotCount, bidCount)
  else
    (lotCount, bidCount)
termination_by lotCount + bidCount

/-- The plan, with the asset lists trimmed to the pool's cap. -/
def boundedPlan (collateral liabilities : List PositionValue) (percent maxPositions : Nat) :
    Except PlanFault LiquidationPlan := do
  let cap := max maxPositions 2
  let (lotCount, bidCount) := trim cap collateral.length liabilities.length
  let lot ← sliceTo collateral lotCount
  let bid ← sliceTo liabilities bidCount
  match FillPercent.tryFrom (min (max percent 1) 100) with
  | some percent => pure { lot := lot.map (·.asset), bid := bid.map (·.asset), percent }
  | none => throw (.math (.invalidInput "a percent outside 1..=100"))

/-- The selection loop: another liability where they are not enough, another
collateral where it cannot cover, and everything once neither side has more. -/
def selectLoop (excess : Int) (collateral liabilities : List PositionValue) (targetHealth : Int) (maxPositions : Nat)
    (lotCount bidCount : Nat) : Except PlanFault LiquidationPlan := do
  let selectedCollateral ← sliceTo collateral lotCount
  let selectedLiabilities ← sliceTo liabilities bidCount
  let percent ← (selectionPercent excess selectedCollateral selectedLiabilities targetHealth).mapError .math
  if percent > 100 then
    if _ : bidCount < liabilities.length then
      selectLoop excess collateral liabilities targetHealth maxPositions lotCount (bidCount + 1)
    else if _ : lotCount < collateral.length then
      selectLoop excess collateral liabilities targetHealth maxPositions (lotCount + 1) bidCount
    else
      boundedPlan collateral liabilities 100 maxPositions
  else if percent = 0 then
    if _ : lotCount < collateral.length then
      selectLoop excess collateral liabilities targetHealth maxPositions (lotCount + 1) bidCount
    else
      boundedPlan collateral liabilities 100 maxPositions
  else
    boundedPlan selectedCollateral selectedLiabilities percent maxPositions
termination_by (collateral.length - lotCount) + (liabilities.length - bidCount)

/-- The auction for `data`, or `none` where there is nothing to close. -/
def planLiquidation (data : PositionData) (collateral liabilities : List PositionValue) (targetHealth : Int)
    (maxPositions : Nat) : Except PlanFault (Option LiquidationPlan) := do
  if liabilities.isEmpty || collateral.isEmpty then
    return none
  let limit ← (mulFloor data.liabilityBase targetHealth SCALAR_7).mapError .math
  let excess ← (narrow (limit - data.collateralBase)).mapError .math
  if excess ≤ 0 then
    return none
  let plan ← selectLoop excess collateral liabilities targetHealth maxPositions 1 1
  pure (some plan)

end BlendLiquidator
