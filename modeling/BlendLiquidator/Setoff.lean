/-
The ADR-0008 fork's default path, ported (`math/setoff.rs`): what the
pool's reserves look like after `check_and_handle_user_bad_debt` has run
over a borrower inside the filler's own transaction.
-/
import BlendLiquidator.Position

namespace BlendLiquidator

/-- The pool's reserves after the default path, and whether any debt was
destroyed. -/
structure DefaultOutcome where
  reserves : BTreeMap Nat Reserve
  defaulted : Bool

/-- Step 1: set-off from the borrower's own `claim` (plain supply) in the
reserve. Answers the reserve and the debt still owed. -/
def setOff (reserve : Reserve) (dTokens claim : Int) : Except MathError (Reserve × Int) := do
  if claim > 0 ∧ reserve.data.bRate > 0 then
    let debtAssets ← reserve.toAssetFromDToken dTokens
    let bTokens := min claim (← reserve.toBTokenUp debtAssets)
    let covered ← reserve.toAssetFromBToken bTokens
    let repaid := min dTokens (← reserve.toDTokenDown covered)
    if repaid > 0 then
      let bSupply ← narrow (reserve.data.bSupply - bTokens)
      let dSupply ← narrow (reserve.data.dSupply - repaid)
      let defaulted ← narrow (dTokens - repaid)
      return ({ reserve with data := { reserve.data with bSupply, dSupply } }, defaulted)
  return (reserve, dTokens)

/-- Step 2: destroy the rest of the debt, and charge every supplier for it
through the `b_rate`. -/
def destroyDebt (reserve : Reserve) (defaulted : Int) : Except MathError Reserve := do
  let dSupply ← narrow (reserve.data.dSupply - defaulted)
  let reserve := { reserve with data := { reserve.data with dSupply } }
  if reserve.data.bSupply > 0 then
    let defaultAmount ← reserve.toAssetFromDToken defaulted
    let loss ← divCeil defaultAmount reserve.data.bSupply SCALAR_12
    let bRate := max (← narrow (reserve.data.bRate - loss)) 0
    return { reserve with data := { reserve.data with bRate } }
  return reserve

/-- One liability of `project_default`'s loop. -/
def defaultLiability (supply : BTreeMap Nat Int) (outcome : DefaultOutcome) (entry : Nat × Int) :
    Except MathError DefaultOutcome := do
  let (index, dTokens) := entry
  let reserve ← reserveAt outcome.reserves index
  let (reserve, defaulted) ← setOff reserve dTokens (supply.getD index 0)
  if defaulted > 0 then
    let reserve ← destroyDebt reserve defaulted
    return { reserves := outcome.reserves.insert index reserve, defaulted := true }
  return { outcome with reserves := outcome.reserves.insert index reserve }

/-- What `check_and_handle_user_bad_debt` would do to the pool's reserves,
given the borrower's positions *after* a fill. The gate is the contract's:
liabilities, and `collateral_raw == 0`. -/
def projectDefault (reserves : BTreeMap Nat Reserve) (prices : OraclePrices) (borrower : Positions) :
    Except MathError DefaultOutcome := do
  if borrower.liabilities.isEmpty then
    return { reserves, defaulted := false }
  let data ← calculatePositionData reserves prices borrower
  if data.collateralRaw ≠ 0 then
    return { reserves, defaulted := false }
  borrower.liabilities.toList.foldlM (defaultLiability borrower.supply)
    { reserves, defaulted := false }

end BlendLiquidator
