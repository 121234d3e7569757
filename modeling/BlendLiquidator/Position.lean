/-
Position valuation and the health factor, ported from the contract's
`PositionData` (`math/position.rs`).

Collateral rounds down and liabilities round up at every step. All base
values are in the oracle's decimals; the health factor is a ratio in that
same scale, so `1.0` is `10^oracle_decimals`.
-/
import BlendLiquidator.Reserve

namespace BlendLiquidator

/-- A user's pool positions, keyed by reserve index, in b-tokens (collateral
and supply) and d-tokens (liabilities). -/
structure Positions where
  collateral : BTreeMap Nat Int := ∅
  liabilities : BTreeMap Nat Int := ∅
  supply : BTreeMap Nat Int := ∅

namespace Positions

/-- Positions that count against the pool's `max_positions`. -/
def effectiveCount (p : Positions) : Nat := p.collateral.size + p.liabilities.size

/-- True when the user holds nothing at all. -/
def isEmpty (p : Positions) : Bool :=
  p.collateral.isEmpty && p.liabilities.isEmpty && p.supply.isEmpty

end Positions

/-- A snapshot of one pool oracle: its decimals and a price per asset. The
fields are private in the source and `new` is the only way to build one, so
the scalar is `10^decimals` and every stored price is strictly positive. -/
structure OraclePrices where
  decimals : Nat
  scalar : Int
  prices : BTreeMap String Int
  scalar_eq : scalar = 10 ^ decimals
  prices_pos : ∀ (asset : String) (price : Int), prices[asset]? = some price → 0 < price

namespace OraclePrices

/-- Builds a snapshot, deriving the scalar from the oracle's decimals. -/
def new (decimals : Nat) (prices : BTreeMap String Int) : Except MathError OraclePrices := do
  let _ ← pow10 decimals
  if h : prices.toList.all (fun entry => decide (0 < entry.2)) then
    pure
      { decimals, prices, scalar := 10 ^ decimals, scalar_eq := rfl
        prices_pos := fun asset price hp => by
          have hm := Std.ExtTreeMap.mem_toList_iff_getElem?_eq_some.2 hp
          simpa using List.all_eq_true.1 h _ hm }
  else
    throw (.invalidInput "oracle price must be positive")

/-- The price of `asset`, or `missingPrice` when the snapshot has none. -/
def price (o : OraclePrices) (asset : String) : Except MathError Int :=
  match o.prices[asset]? with
  | some price => .ok price
  | none => .error (.missingPrice asset)

end OraclePrices

/-- A position valued in the oracle's base asset, effective
(factor-adjusted) and raw. -/
structure PositionData where
  collateralBase : Int
  collateralRaw : Int
  liabilityBase : Int
  liabilityRaw : Int
  scalar : Int
  deriving Repr, DecidableEq

namespace PositionData

/-- `collateral_base / liability_base` in the oracle's scale, or `none` when
there are no liabilities. -/
def healthFactor (d : PositionData) : Except MathError (Option Int) :=
  if d.liabilityBase = 0 then
    .ok none
  else
    some <$> divFloor d.collateralBase d.liabilityBase d.scalar

/-- Whether the health factor exceeds `max` (7 decimals). -/
def isHfOver (d : PositionData) (max : Int) : Except MathError Bool := do
  match ← d.healthFactor with
  | none => pure true
  | some healthFactor => pure (decide (healthFactor > (← mulCeil d.scalar max SCALAR_7)))

/-- Whether the health factor is below `min` (7 decimals). -/
def isHfUnder (d : PositionData) (min : Int) : Except MathError Bool := do
  match ← d.healthFactor with
  | none => pure false
  | some healthFactor => pure (decide (healthFactor < (← mulFloor d.scalar min SCALAR_7)))

end PositionData

/-- The reserve at `index`: an index the pool does not have is an error,
never a zero. -/
def reserveAt (reserves : BTreeMap Nat Reserve) (index : Nat) : Except MathError Reserve :=
  match reserves[index]? with
  | some reserve => .ok reserve
  | none => .error (.missingReserve index)

/-- One collateral entry of `calculate_position_data`'s first loop. -/
def addCollateral (reserves : BTreeMap Nat Reserve) (prices : OraclePrices) (data : PositionData)
    (entry : Nat × Int) : Except MathError PositionData := do
  let (index, bTokens) := entry
  if bTokens = 0 then
    return data
  let reserve ← reserveAt reserves index
  let price ← prices.price reserve.asset
  let effective ← reserve.toEffectiveAssetFromBToken bTokens
  let raw ← reserve.toAssetFromBToken bTokens
  let collateralBase ← narrow (data.collateralBase + (← mulFloor price effective reserve.scalar))
  let collateralRaw ← narrow (data.collateralRaw + (← mulFloor price raw reserve.scalar))
  return { data with collateralBase, collateralRaw }

/-- One liability entry of `calculate_position_data`'s second loop. -/
def addLiability (reserves : BTreeMap Nat Reserve) (prices : OraclePrices) (data : PositionData)
    (entry : Nat × Int) : Except MathError PositionData := do
  let (index, dTokens) := entry
  if dTokens = 0 then
    return data
  let reserve ← reserveAt reserves index
  let price ← prices.price reserve.asset
  let effective ← reserve.toEffectiveAssetFromDToken dTokens
  let raw ← reserve.toAssetFromDToken dTokens
  let liabilityBase ← narrow (data.liabilityBase + (← mulCeil price effective reserve.scalar))
  let liabilityRaw ← narrow (data.liabilityRaw + (← mulCeil price raw reserve.scalar))
  return { data with liabilityBase, liabilityRaw }

/-- Values `positions` against `reserves` (keyed by `ReserveConfig::index`)
and `prices`. -/
def calculatePositionData (reserves : BTreeMap Nat Reserve) (prices : OraclePrices)
    (positions : Positions) : Except MathError PositionData := do
  let data : PositionData :=
    { collateralBase := 0, collateralRaw := 0, liabilityBase := 0, liabilityRaw := 0
      scalar := prices.scalar }
  let data ← positions.collateral.toList.foldlM (addCollateral reserves prices) data
  positions.liabilities.toList.foldlM (addLiability reserves prices) data

end BlendLiquidator
