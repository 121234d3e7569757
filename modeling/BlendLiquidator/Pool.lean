/-
One ledger's view of a pool (`chain/pool.rs`): what a snapshot holds, and the
instant and the reserves its positions are valued with.
-/
import BlendLiquidator.Chain
import BlendLiquidator.Position

namespace BlendLiquidator

/-- A snapshot. Reserves are as stored, not yet accrued; a requested user the
ledger holds nothing of has empty positions. -/
structure PoolSnapshot where
  ledger : Nat
  bstopRate : Nat
  reserves : BTreeMap Nat Reserve
  prices : OraclePrices
  positions : BTreeMap String Positions

namespace PoolSnapshot

/-- The later of `closeTime` and the newest reserve entry. -/
def valuedAt (s : PoolSnapshot) (closeTime : Nat) : Nat :=
  max ((s.reserves.toList.map fun entry => entry.2.data.lastTime).foldl max 0) closeTime

/-- The reserves accrued to `valuedAt` of `at`, each in turn. -/
def accruedReserves (s : PoolSnapshot) (time : Nat) : Except MathError (BTreeMap Nat Reserve) :=
  s.reserves.toList.foldlM (fun accrued entry => do
    pure (accrued.insert entry.1 (← entry.2.accrue s.bstopRate (s.valuedAt time)))) ∅

/-- A user's positions at `valuedAt` of `closeTime`; `none` when the user was
not requested or holds nothing. -/
def positionData (s : PoolSnapshot) (user : String) (closeTime : Nat) :
    Except ChainError (Option PositionData) :=
  match s.positions[user]? with
  | none => .ok none
  | some positions =>
    if positions.isEmpty then
      .ok none
    else do
      let reserves ← (s.accruedReserves closeTime).mapError .math
      let data ← (calculatePositionData reserves s.prices positions).mapError .math
      pure (some data)

end PoolSnapshot

end BlendLiquidator
