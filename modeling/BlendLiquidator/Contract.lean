/-
The pool contract's side of a submission: what each request a plan sends
does to the sender's own positions, over exact integers and with the
contract's rounding. The planners are checked against this and never
against their own projection.

A `Repay` burns what its amount covers, rounded down and capped at the debt;
a `Withdraw` burns its amount rounded up and capped at the position; an
emptied entry is removed.
-/
import BlendLiquidator.Position
import BlendLiquidator.TreeMaps

namespace BlendLiquidator

inductive Request
  | repay (asset : String) (amount : Int)
  | withdraw (asset : String) (amount : Int)
  | withdrawAll (asset : String)
  | supplyCollateral (asset : String) (amount : Int)
  deriving Repr, DecidableEq

/-- The pool as the contract looks assets up in it. -/
structure PoolReserves where
  reserves : BTreeMap Nat Reserve
  assetIndex : BTreeMap String Nat

/-- The reserve index and reserve of a listed asset. -/
def PoolReserves.listed (pool : PoolReserves) (asset : String) : Except MathError (Nat × Reserve) :=
  match pool.assetIndex[asset]? with
  | none => .error (.invalidInput "the asset is not a reserve of this pool")
  | some index => do
    let reserve ← reserveAt pool.reserves index
    pure (index, reserve)

/-- A balance as the contract stores it: an emptied entry is removed. -/
def setBalance (map : BTreeMap Nat Int) (index : Nat) (left : Int) : BTreeMap Nat Int :=
  if left > 0 then map.insert index left else map.erase index

/-- A balance raised by `amount`. -/
def raise (map : BTreeMap Nat Int) (index : Nat) (amount : Int) : BTreeMap Nat Int :=
  map.insert index (map.getD index 0 + amount)

/-- One request, as the contract carries it out. -/
def applyRequest (pool : PoolReserves) (p : Positions) : Request → Except MathError Positions
  | .repay asset amount => do
    let (index, reserve) ← pool.listed asset
    let owed := p.liabilities.getD index 0
    let burnt := min (← reserve.toDTokenDown amount) owed
    pure { p with liabilities := setBalance p.liabilities index (owed - burnt) }
  | .withdraw asset amount => do
    let (index, reserve) ← pool.listed asset
    let held := p.collateral.getD index 0
    let burnt := min (← reserve.toBTokenUp amount) held
    pure { p with collateral := setBalance p.collateral index (held - burnt) }
  | .withdrawAll asset => do
    let (index, _) ← pool.listed asset
    pure { p with collateral := p.collateral.erase index }
  | .supplyCollateral asset amount => do
    let (index, reserve) ← pool.listed asset
    let minted ← reserve.toBTokenDown amount
    pure { p with collateral := raise p.collateral index minted }

/-- What a list of requests takes from the wallet of `asset`. -/
def spentOn (asset : String) : List Request → Int
  | [] => 0
  | .repay a amount :: rest | .supplyCollateral a amount :: rest =>
    (if a = asset then amount else 0) + spentOn asset rest
  | .withdraw _ _ :: rest | .withdrawAll _ :: rest => spentOn asset rest

theorem spentOn_concat (asset : String) (a : Request) : ∀ l : List Request,
    spentOn asset (l ++ [a]) = spentOn asset l + spentOn asset [a]
  | [] => by simp [spentOn]
  | .repay _ _ :: l | .supplyCollateral _ _ :: l => by
    simp only [List.cons_append, spentOn, spentOn_concat asset a l]
    omega
  | .withdraw _ _ :: l | .withdrawAll _ :: l => by
    simp only [List.cons_append, spentOn, spentOn_concat asset a l]

theorem setBalance_getD {map : BTreeMap Nat Int} {index : Nat} {left : Int} (h : 0 ≤ left) (a : Nat) :
    (setBalance map index left).getD a 0 = if index = a then left else map.getD a 0 := by
  unfold setBalance
  split
  · exact TreeMaps.getD_insert _ _ _ _ _
  · next hpos =>
    rw [TreeMaps.getD_erase]
    split
    · omega
    · rfl

theorem setBalance_getElem?_of_ne {map : BTreeMap Nat Int} {index a : Nat} {left : Int} (h : index ≠ a) :
    (setBalance map index left)[a]? = map[a]? := by
  unfold setBalance
  split
  · rw [TreeMaps.getElem?_insert, if_neg h]
  · rw [TreeMaps.getElem?_erase, if_neg h]

/-- A stored balance is never negative: an entry is written when positive. -/
theorem setBalance_nonneg {map : BTreeMap Nat Int} {index : Nat} {left : Int}
    (h : ∀ (a : Nat) (v : Int), map[a]? = some v → 0 ≤ v) (a : Nat) (v : Int)
    (hv : (setBalance map index left)[a]? = some v) : 0 ≤ v := by
  by_cases ha : index = a
  · subst ha
    unfold setBalance at hv
    split at hv
    · rw [TreeMaps.getElem?_insert, if_pos rfl] at hv
      cases hv
      omega
    · rw [TreeMaps.getElem?_erase, if_pos rfl] at hv
      cases hv
  · rw [setBalance_getElem?_of_ne ha] at hv
    exact h a v hv

end BlendLiquidator
