/-
The unwinder's arithmetic (`math/unwind.rs`): which of the filler's debts to
repay from its wallet, and which of its collateral to withdraw, once a fill
has left it holding the lot as collateral and owing the bid.

`planUnwind` follows the source's three steps. The loops run over lists
fixed before they start (the reserve indices held, the candidate order), so
each is a `foldlM`; the one loop with an early exit, the back-off of
`partial`, is by recursion on the rounds left.
-/
import BlendLiquidator.Fill
import Mathlib.Data.List.Sort

namespace BlendLiquidator

/-- Where step 3 rests above `min_health_factor`, in basis points. -/
def HEALTH_MARGIN_BPS : Int := 50

/-- The smallest withdrawal of the primary worth a transaction, as a
fraction of `min_primary_collateral` in basis points. -/
def DUST_FLOOR_BPS : Int := 100

/-- How far a partial withdrawal is cut when its projection disagrees with
the formula, as a fraction of itself in basis points. -/
def BACKOFF_BPS : Int := 1

/-- How many times a partial withdrawal is backed off before the candidate
is given up on. -/
def BACKOFF_ROUNDS : Nat := 8

/-- What the operator holds one unwind to. -/
structure UnwindTerms where
  primaryAsset : String
  minPrimaryCollateral : Int
  minHealthFactor : Int
  minCollateral : Int

/-- The chain state one plan is made against, all read at one ledger. -/
structure UnwindInputs where
  reserves : BTreeMap Nat Reserve
  assetIndex : BTreeMap String Nat
  prices : OraclePrices
  positions : Positions
  wallet : BTreeMap String Int

/-- One request an unwind sends, in the order sent. -/
inductive UnwindAction
  | repay (asset : String) (amount : Int)
  | withdraw (asset : String) (amount : Int)
  | withdrawAll (asset : String)
  deriving Repr, DecidableEq

/-- What one unwind pass moves. -/
structure UnwindPlan where
  actions : List UnwindAction
  spend : BTreeMap String Int
  remainingLiabilities : List String
  projectedHealth : Option Int

/-- Whether the pass moves nothing. -/
def UnwindPlan.isIdle (plan : UnwindPlan) : Bool := plan.actions.isEmpty

/-- What `repay` carries from one liability to the next. -/
structure Repaying where
  positions : Positions
  wallet : BTreeMap String Int
  actions : List UnwindAction
  spend : BTreeMap String Int

/-- One liability of step 1. A repay the wallet capped below its allowance
is projected to clear nothing: accrual before it lands may leave dust. -/
def repayLiability (inputs : UnwindInputs) (w : Repaying) (index : Nat) : Except MathError Repaying := do
  let reserve ← reserveAt inputs.reserves index
  let owing := w.positions.liabilities.getD index 0
  if owing ≤ 0 then
    return { w with
      positions := { w.positions with liabilities := w.positions.liabilities.erase index } }
  let held := w.wallet.getD reserve.asset 0
  if held ≤ 0 then
    return w
  let owed ← reserve.toAssetFromDToken owing
  let wanted ← withAllowance owed
  let amount := min wanted held
  let burnt := min (← reserve.toDTokenDown amount) owing
  let left ← narrow (owing - burnt)
  let left := if left = 0 ∧ amount < wanted then owing else left
  let liabilities :=
    if left > 0 then w.positions.liabilities.insert index left
    else w.positions.liabilities.erase index
  let rest ← narrow (held - amount)
  let spend ← addTo w.spend reserve.asset amount
  return { positions := { w.positions with liabilities }
           wallet := w.wallet.insert reserve.asset rest
           actions := w.actions ++ [.repay reserve.asset amount]
           spend }

/-- Step 1, over the liabilities in reserve-index order. -/
def repay (inputs : UnwindInputs) : Except MathError Repaying :=
  inputs.positions.liabilities.keys.foldlM (repayLiability inputs)
    { positions := inputs.positions, wallet := inputs.wallet, actions := [], spend := ∅ }

/-- The reserve index of the primary asset: one the pool does not list is an
error, never "there is no primary here". -/
def primaryIndex (terms : UnwindTerms) (inputs : UnwindInputs) : Except MathError Nat :=
  match inputs.assetIndex[terms.primaryAsset]? with
  | some index => .ok index
  | none => .error (.invalidInput "the primary asset is not a reserve of this pool")

/-- The working positions, valued. -/
def projectUnwind (inputs : UnwindInputs) (positions : Positions) : Except MathError PositionData :=
  calculatePositionData inputs.reserves inputs.prices positions

/-- Whether a withdrawal of the primary is too small to send. -/
def dust (terms : UnwindTerms) (amount : Int) : Except MathError Bool := do
  return decide (amount < (← mulFloor (max terms.minPrimaryCollateral 0) DUST_FLOOR_BPS BPS))

/-- The primary's underlying above `min_primary_collateral`, computed in
b-tokens so that what stays is the floor's own image. -/
def primaryExcess (terms : UnwindTerms) (inputs : UnwindInputs) (positions : Positions) :
    Except MathError Int := do
  let primary ← primaryIndex terms inputs
  let reserve ← reserveAt inputs.reserves primary
  let held := positions.collateral.getD primary 0
  if held ≤ 0 then
    return 0
  let floor ← reserve.toBTokenUp (max terms.minPrimaryCollateral 0)
  let goes ← narrow (held - floor)
  if goes ≤ 0 then
    return 0
  reserve.toAssetFromBToken goes

/-- The positions a `WithdrawCollateral` of `amount` from `index` leaves. -/
def afterWithdrawal (inputs : UnwindInputs) (positions : Positions) (index : Nat) (amount : Int) :
    Except MathError Positions := do
  let reserve ← reserveAt inputs.reserves index
  let held := positions.collateral.getD index 0
  let burnt := min (← reserve.toBTokenUp amount) held
  let left ← narrow (held - burnt)
  return { positions with
    collateral := if left > 0 then positions.collateral.insert index left
                  else positions.collateral.erase index }

/-- What the withdrawal steps carry along. -/
structure Withdrawing where
  positions : Positions
  actions : List UnwindAction

/-- One non-primary collateral of step 2. A zero position is nothing to
withdraw: the contract would refuse the whole call. -/
def withdrawFreely (inputs : UnwindInputs) (primary : Nat) (w : Withdrawing) (index : Nat) :
    Except MathError Withdrawing := do
  if index = primary then
    return w
  let empty := decide (w.positions.collateral.getD index 0 ≤ 0)
  let reserve ← reserveAt inputs.reserves index
  return { positions := { w.positions with collateral := w.positions.collateral.erase index }
           actions := if empty then w.actions else w.actions ++ [.withdrawAll reserve.asset] }

/-- The primary at the end of step 2: down to its floor, or all of it when
there is none. -/
def withdrawPrimary (terms : UnwindTerms) (inputs : UnwindInputs) (primary : Nat) (w : Withdrawing) :
    Except MathError Withdrawing := do
  if w.positions.collateral.getD primary 0 ≤ 0 then
    return w
  let reserve ← reserveAt inputs.reserves primary
  if terms.minPrimaryCollateral ≤ 0 then
    return { positions := { w.positions with collateral := w.positions.collateral.erase primary }
             actions := w.actions ++ [.withdrawAll reserve.asset] }
  let excess ← primaryExcess terms inputs w.positions
  if excess ≤ 0 then
    return w
  if ← dust terms excess then
    return w
  let positions ← afterWithdrawal inputs w.positions primary excess
  return { positions, actions := w.actions ++ [.withdraw reserve.asset excess] }

/-- Step 2, for a position the contract will not health-check. -/
def withdrawFree (terms : UnwindTerms) (inputs : UnwindInputs) (w : Withdrawing) :
    Except MathError Withdrawing := do
  let primary ← primaryIndex terms inputs
  let w ← w.positions.collateral.keys.foldlM (withdrawFreely inputs primary) w
  withdrawPrimary terms inputs primary w

/-- What every projection in step 3 is judged by. -/
structure Bounds where
  margin : Int
  minCollateral : Int

def Bounds.of (terms : UnwindTerms) : Except MathError Bounds := do
  let scaled ← narrow (BPS + HEALTH_MARGIN_BPS)
  let margin ← mulCeil terms.minHealthFactor scaled BPS
  return { margin, minCollateral := terms.minCollateral }

/-- Whether a projected end state is one step 3 may take. -/
def Bounds.accepts (bounds : Bounds) (data : PositionData) : Except MathError Bool := do
  let under ← data.isHfUnder bounds.margin
  return !under && decide (data.collateralBase ≥ bounds.minCollateral)

/-- The lists `candidates` builds: collateral that is also a liability, the
rest with its effective value, and whether the primary is held. -/
structure Order where
  order : List Nat := []
  rest : List (Int × Nat) := []
  holdsPrimary : Bool := false

/-- One collateral entry of `candidates`' loop. -/
def placeCandidate (inputs : UnwindInputs) (positions : Positions) (primary : Nat) (o : Order)
    (entry : Nat × Int) : Except MathError Order := do
  let (index, bTokens) := entry
  if bTokens ≤ 0 then
    return o
  if index = primary then
    return { o with holdsPrimary := true }
  if positions.liabilities.contains index then
    return { o with order := o.order ++ [index] }
  let reserve ← reserveAt inputs.reserves index
  let price ← inputs.prices.price reserve.asset
  let effective ← reserve.toEffectiveAssetFromBToken bTokens
  let value ← mulFloor price effective reserve.scalar
  return { o with rest := o.rest ++ [(value, index)] }

/-- Tuples compare by their value first and their index second. -/
def byValue (x y : Int × Nat) : Prop := x.1 < y.1 ∨ x.1 = y.1 ∧ x.2 ≤ y.2

instance : DecidableRel byValue := fun x y =>
  inferInstanceAs (Decidable (x.1 < y.1 ∨ x.1 = y.1 ∧ x.2 ≤ y.2))

/-- Step 3's candidate order, from the post-repay positions. -/
def candidates (terms : UnwindTerms) (inputs : UnwindInputs) (positions : Positions) :
    Except MathError (List Nat) := do
  let primary ← primaryIndex terms inputs
  let o ← positions.collateral.toList.foldlM (placeCandidate inputs positions primary) {}
  return o.order ++ (o.rest.insertionSort byValue).map Prod.snd ++
    (if o.holdsPrimary then [primary] else [])

/-- Projects a `Withdraw` of `amount` from `index` and takes it when the
bounds accept the projection; `none` leaves everything as it was. -/
def takeWithdrawal (bounds : Bounds) (inputs : UnwindInputs) (w : Withdrawing) (index : Nat)
    (amount : Int) : Except MathError (Option Withdrawing) := do
  if amount ≤ 0 then
    return none
  let next ← afterWithdrawal inputs w.positions index amount
  if !(← bounds.accepts (← projectUnwind inputs next)) then
    return none
  let reserve ← reserveAt inputs.reserves index
  return some { positions := next, actions := w.actions ++ [.withdraw reserve.asset amount] }

/-- A partial withdrawal of the primary that is dust is not sent. -/
def tooSmall (terms : UnwindTerms) (isPrimary : Bool) (amount : Int) : Except MathError Bool :=
  if amount ≤ 0 then .ok true else if isPrimary then dust terms amount else .ok false

/-- The back-off of `partial`, `n` tries left. -/
def backOff (terms : UnwindTerms) (bounds : Bounds) (inputs : UnwindInputs) (w : Withdrawing)
    (index : Nat) (isPrimary : Bool) : Nat → Int → Except MathError Withdrawing
  | 0, _ => .ok w
  | n + 1, amount => do
    if ← tooSmall terms isPrimary amount then
      return w
    match ← takeWithdrawal bounds inputs w index amount with
    | some taken => return taken
    | none =>
      let less ← narrow (amount - (← mulCeil amount BACKOFF_BPS BPS))
      backOff terms bounds inputs w index isPrimary n less

/-- The b-tokens a partial withdrawal of `index` may take: the position less
what the bounds ask of it, and never the primary's own floor. -/
def mayGo (terms : UnwindTerms) (bounds : Bounds) (inputs : UnwindInputs) (reserve : Reserve)
    (data : PositionData) (held : Int) (isPrimary : Bool) : Except MathError Int := do
  let cFactor : Int := reserve.config.cFactor
  let price ← inputs.prices.price reserve.asset
  let required := max (← mulCeil data.liabilityBase bounds.margin SCALAR_7) bounds.minCollateral
  let mayGo ← narrow (data.collateralBase - required)
  let carries ← mulFloor price (← reserve.toEffectiveAssetFromBToken held) reserve.scalar
  let staysBase := max (← narrow (carries - mayGo)) 0
  let stays ← reserve.toBTokenUp (← divCeil (← mulCeil staysBase reserve.scalar price) cFactor SCALAR_7)
  let goes ← narrow (held - stays)
  if isPrimary then
    let floor ← reserve.toBTokenUp (max terms.minPrimaryCollateral 0)
    return min goes (← narrow (held - floor))
  return goes

/-- The largest partial withdrawal of `index` the bounds allow, by formula
and then by projection (`partial`). -/
def withdrawPartial (terms : UnwindTerms) (bounds : Bounds) (inputs : UnwindInputs) (w : Withdrawing)
    (data : PositionData) (index : Nat) : Except MathError Withdrawing := do
  let reserve ← reserveAt inputs.reserves index
  if reserve.config.cFactor = 0 then
    return w
  let held := w.positions.collateral.getD index 0
  if held ≤ 0 then
    return w
  let primary ← primaryIndex terms inputs
  let isPrimary := decide (index = primary)
  let goes ← mayGo terms bounds inputs reserve data held isPrimary
  if goes ≤ 0 then
    return w
  let amount ← reserve.toAssetFromBToken goes
  backOff terms bounds inputs w index isPrimary (BACKOFF_ROUNDS + 1) amount

/-- The primary as a candidate: its excess over the floor, then a partial. -/
def withdrawPrimaryCandidate (terms : UnwindTerms) (bounds : Bounds) (inputs : UnwindInputs)
    (w : Withdrawing) (data : PositionData) (index : Nat) : Except MathError Withdrawing := do
  let excess ← primaryExcess terms inputs w.positions
  if excess ≤ 0 then
    return w
  if ← dust terms excess then
    return w
  match ← takeWithdrawal bounds inputs w index excess with
  | some taken => return taken
  | none => withdrawPartial terms bounds inputs w data index

/-- Any other candidate: its whole position, then a partial. -/
def withdrawOtherCandidate (terms : UnwindTerms) (bounds : Bounds) (inputs : UnwindInputs)
    (w : Withdrawing) (data : PositionData) (index : Nat) : Except MathError Withdrawing := do
  let reserve ← reserveAt inputs.reserves index
  let whole : Positions := { w.positions with collateral := w.positions.collateral.erase index }
  if ← bounds.accepts (← projectUnwind inputs whole) then
    return { positions := whole, actions := w.actions ++ [.withdrawAll reserve.asset] }
  withdrawPartial terms bounds inputs w data index

/-- One candidate: its whole position first, and when the projection refuses
that, the largest partial. -/
def withdrawCandidate (terms : UnwindTerms) (bounds : Bounds) (inputs : UnwindInputs)
    (w : Withdrawing) (data : PositionData) (index : Nat) : Except MathError Withdrawing := do
  let primary ← primaryIndex terms inputs
  if index = primary then
    withdrawPrimaryCandidate terms bounds inputs w data index
  else
    withdrawOtherCandidate terms bounds inputs w data index

/-- Step 3's walk: each candidate in turn, stopping at the first projection
under the margin. -/
def walkCandidates (terms : UnwindTerms) (bounds : Bounds) (inputs : UnwindInputs) :
    List Nat → Withdrawing → Except MathError Withdrawing
  | [], w => .ok w
  | index :: rest, w => do
    let data ← projectUnwind inputs w.positions
    if ← data.isHfUnder bounds.margin then
      return w
    let w ← withdrawCandidate terms bounds inputs w data index
    walkCandidates terms bounds inputs rest w

/-- Step 3, for a position that keeps liabilities. -/
def withdrawWithinFloor (terms : UnwindTerms) (inputs : UnwindInputs) (w : Withdrawing) :
    Except MathError (Withdrawing × Option Int) := do
  let bounds ← Bounds.of terms
  let order ← candidates terms inputs w.positions
  let w ← walkCandidates terms bounds inputs order w
  let health ← (← projectUnwind inputs w.positions).healthFactor
  return (w, health)

/-- The asset of each liability left, in reserve-index order. -/
def liabilityAssets (inputs : UnwindInputs) (positions : Positions) : Except MathError (List String) :=
  positions.liabilities.keys.mapM fun index => Reserve.asset <$> reserveAt inputs.reserves index

/-- Steps 2 and 3: the withdrawals, and the health factor they end on. -/
def withdrawCollateral (terms : UnwindTerms) (inputs : UnwindInputs) (w : Withdrawing) :
    Except MathError (Withdrawing × Option Int) :=
  if w.positions.liabilities.isEmpty then
    (·, none) <$> withdrawFree terms inputs w
  else
    withdrawWithinFloor terms inputs w

/-- Builds one unwind pass: repay, then withdraw freely when nothing is
owed any more and within the floors otherwise. -/
def planUnwind (terms : UnwindTerms) (inputs : UnwindInputs) : Except MathError UnwindPlan := do
  let repaid ← repay inputs
  let remainingLiabilities ← liabilityAssets inputs repaid.positions
  let (w, projectedHealth) ←
    withdrawCollateral terms inputs { positions := repaid.positions, actions := repaid.actions }
  return { actions := w.actions, spend := repaid.spend, remainingLiabilities, projectedHealth }

end BlendLiquidator
