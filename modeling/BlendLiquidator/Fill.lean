/-
The filler's arithmetic (`math/fill.rs`): what an auction is worth, the
ledger to fill it at, and, in `planFill`, the requests that keep the
filler's own position at or above its floor while it takes the auction over.

A `u32` ledger is a natural number, and the one addition the planner checks
(`checked_add`) is checked against `2^32`. The loops are the source's: the
rounds of `plan_fill` by recursion on `plan_iterations`, the two searches
over their own ranges, `supply_headroom`'s binary search on the width of its
interval.
-/
import BlendLiquidator.Auction
import BlendLiquidator.Setoff

namespace BlendLiquidator

/-- The latest delay, in ledgers from an auction's start, a `force_fill`
pool waits before filling. -/
def FORCE_FILL_MAX_DELAY : Nat := 350

/-- Basis points in one. -/
def BPS : Int := 10000

def u32Max : Nat := 2 ^ 32 - 1

/-- `u32::checked_add(..).ok_or(Overflow)`. -/
def addU32 (x y : Nat) : Except MathError Nat :=
  if x + y ≤ u32Max then .ok (x + y) else .error .overflow

/-- `u32::try_from(x).map_err(|_| Overflow)`. -/
def toU32 (x : Int) : Except MathError Nat :=
  if 0 ≤ x ∧ x ≤ u32Max then .ok x.toNat else .error .overflow

/-- One entry of an auction's side, keyed by reserve index. -/
def indexEntry (assetIndex : BTreeMap String Nat) (positions : BTreeMap Nat Int)
    (entry : String × Int) : Except MathError (BTreeMap Nat Int) :=
  match assetIndex[entry.1]? with
  | some index => .ok (positions.insert index entry.2)
  | none => .error (.invalidInput "an auction names an asset that is not a reserve of this pool")

/-- An auction's two sides as a position: the lot's b-tokens as collateral
and the bid's d-tokens as liabilities, keyed by reserve index. -/
def auctionPositions (auction : AuctionData) (assetIndex : BTreeMap String Nat) :
    Except MathError Positions := do
  let collateral ← auction.lot.toList.foldlM (indexEntry assetIndex) ∅
  let liabilities ← auction.bid.toList.foldlM (indexEntry assetIndex) ∅
  pure { collateral, liabilities }

/-- The closed form on the two ramps, before `force_fill`'s cap: on the lot
ramp the smallest `d` with `lot · d / 200 ≥ bid · margin / BPS`, on the bid
ramp `400` less the largest `k` with `bid · k / 200 · margin ≤ lot · BPS`. -/
def rampDelay (lotRaw bidRaw margin : Int) : Except MathError Nat :=
  let ramp : Int := RAMP_BLOCKS
  if bidRaw = 0 then
    .ok 0
  else if lotRaw = 0 then
    .ok RAMP_END_BLOCKS
  else if lotRaw * BPS ≥ bidRaw * margin then do
    let denominator ← narrow (lotRaw * BPS)
    let factor ← narrow (ramp * margin)
    let delay ← mulCeil bidRaw factor denominator
    toU32 delay
  else do
    let denominator ← narrow (bidRaw * margin)
    let factor ← narrow (ramp * BPS)
    let covered ← mulFloor lotRaw factor denominator
    let covered ← toU32 covered
    if covered ≤ RAMP_END_BLOCKS then .ok (RAMP_END_BLOCKS - covered) else .error .overflow

/-- The fewest ledgers after an auction's start at which its lot covers its
bid plus `profitBps`. -/
def fillDelay (lotRaw bidRaw : Int) (profitBps : Nat) (forceFill : Bool) : Except MathError Nat := do
  if lotRaw < 0 ∨ bidRaw < 0 then
    throw (.invalidInput "an auction's value is never negative")
  let margin ← narrow (BPS + profitBps)
  let delay ← rampDelay lotRaw bidRaw margin
  pure (if forceFill then min delay FORCE_FILL_MAX_DELAY else delay)

/-- Whether an auction worth `lotRaw` against `bidRaw` meets `profitBps` when
filled `delay` ledgers after its start, cross-multiplied in 256 bits. -/
def meetsMargin (delay : Nat) (lotRaw bidRaw : Int) (profitBps : Nat) : Bool :=
  decide (lotRaw * lotModifier delay * BPS ≥ bidRaw * bidModifier delay * (BPS + profitBps))

/-- Which ledger a fill aims at. -/
inductive FillObjective
  /-- Wait for the ledger the bid is gone. -/
  | freeFill
  /-- Fill at the earliest ledger the lot covers the bid plus the margin. -/
  | earliestProfitable
  deriving Repr, DecidableEq

/-- A fill or auction percent, 1 to 100. -/
structure FillPercent where
  get : Nat
  one_le : 1 ≤ get
  le_hundred : get ≤ 100
  deriving DecidableEq

def FillPercent.tryFrom (value : Nat) : Option FillPercent :=
  if h : 1 ≤ value ∧ value ≤ 100 then some ⟨value, h.1, h.2⟩ else none

/-- What the pool and the operator hold one fill to. -/
structure FillTerms where
  minCollateral : Int
  maxPositions : Nat
  supplyAllowed : Bool
  primaryAsset : String
  healthFloor : Int
  profitBps : Nat
  forceFill : Bool
  objective : FillObjective
  planIterations : Nat

/-- The chain state one plan is made against, all read at one ledger. -/
structure FillInputs where
  reserves : BTreeMap Nat Reserve
  assetIndex : BTreeMap String Nat
  prices : OraclePrices
  filler : Positions
  borrower : Positions
  wallet : BTreeMap String Int
  auction : AuctionData
  earliestLedger : Nat
  maxPercent : FillPercent

/-- One request a plan adds after the fill itself, in the order sent. -/
inductive FillAction
  | repay (asset : String) (amount : Int)
  | withdrawAll (asset : String)
  | supplyCollateral (asset : String) (amount : Int)
  deriving Repr, DecidableEq

/-- A fill the filler's own position can carry. -/
structure FillDraft where
  fillLedger : Nat
  percent : FillPercent
  actions : List FillAction
  toFill : AuctionData
  lotValue : Int
  bidValue : Int
  estProfit : Int
  spend : BTreeMap String Int
  projectedHealth : Option Int

/-- Why no fill was planned. -/
inductive FillSkip
  | unprofitable
  | tooManyPositions
  | unfunded
  | supplyCapped
  | health
  deriving Repr, DecidableEq

inductive PlannedFill
  | fill (draft : FillDraft)
  | skip (reason : FillSkip)

/-- The allowance a repay adds above the scaled bid: one basis point. -/
def REPAY_ALLOWANCE_BPS : Int := 1

/-- Units added to a supply for the b-token round trip's two floors. -/
def SUPPLY_ROUNDING_ALLOWANCE : Int := 2

/-- One candidate fill, projected exactly by `project`. -/
structure Projection where
  toFill : AuctionData
  positions : Positions
  actions : List FillAction
  spend : BTreeMap String Int
  primaryAvailable : Int
  data : PositionData

/-- The reserve index and reserve of `asset`. -/
def reserveFor (inputs : FillInputs) (asset : String) : Except MathError (Nat × Reserve) :=
  match inputs.assetIndex[asset]? with
  | none => .error (.invalidInput "a fill names an asset that is not a reserve of this pool")
  | some index => do
    let reserve ← reserveAt inputs.reserves index
    pure (index, reserve)

/-- Adds `amount` to `key`'s entry, checked. A zero amount creates no entry. -/
def addTo {κ : Type} [Ord κ] [Std.TransOrd κ] (map : BTreeMap κ Int) (key : κ) (amount : Int) :
    Except MathError (BTreeMap κ Int) := do
  if amount = 0 then
    return map
  let entry ← narrow (map.getD key 0 + amount)
  return map.insert key entry

/-- Subtracts `amount` from `index`'s entry, checked, removing the entry
once nothing is left of it. -/
def removeFrom (map : BTreeMap Nat Int) (index : Nat) (amount : Int) :
    Except MathError (BTreeMap Nat Int) :=
  match map[index]? with
  | none => .ok map
  | some held => do
    let left ← narrow (held - amount)
    pure (if left > 0 then map.insert index left else map.erase index)

/-- One side of the scaled auction taken from a map keyed by reserve index. -/
def giveUp (inputs : FillInputs) (map : BTreeMap Nat Int) (entry : String × Int) :
    Except MathError (BTreeMap Nat Int) := do
  let (index, _) ← reserveFor inputs entry.1
  removeFrom map index entry.2

/-- The pool's reserves as a full fill of `toFill` would leave them: the
borrower reduced by what the fill takes over, then the default path. -/
def defaultedReserves (inputs : FillInputs) (toFill : AuctionData) :
    Except MathError (BTreeMap Nat Reserve) := do
  let collateral ← toFill.lot.toList.foldlM (giveUp inputs) inputs.borrower.collateral
  let liabilities ← toFill.bid.toList.foldlM (giveUp inputs) inputs.borrower.liabilities
  let outcome ← projectDefault inputs.reserves inputs.prices
    { inputs.borrower with collateral, liabilities }
  pure outcome.reserves

/-- One side of the scaled auction added to a map keyed by reserve index. -/
def takeOver (inputs : FillInputs) (map : BTreeMap Nat Int) (entry : String × Int) :
    Except MathError (BTreeMap Nat Int) := do
  let (index, _) ← reserveFor inputs entry.1
  addTo map index entry.2

/-- What the three request loops of `project` carry along. -/
structure Working where
  positions : Positions
  wallet : BTreeMap String Int
  actions : List FillAction
  spend : BTreeMap String Int

/-- The underlying a repay of `owed` asks for before the wallet caps it: one
basis point and one unit above. -/
def withAllowance (owed : Int) : Except MathError Int := do
  let sum ← narrow (owed + (← mulFloor owed REPAY_ALLOWANCE_BPS BPS))
  narrow (sum + 1)

/-- A `Repay` of one bid asset the wallet holds a positive balance of. -/
def repayBid (inputs : FillInputs) (w : Working) (entry : String × Int) :
    Except MathError Working := do
  let (asset, dTokens) := entry
  let held := w.wallet.getD asset 0
  if held ≤ 0 then
    return w
  let (index, reserve) ← reserveFor inputs asset
  let owed ← reserve.toAssetFromDToken dTokens
  let amount := min (← withAllowance owed) held
  let owing := w.positions.liabilities.getD index 0
  let burnt := min (← reserve.toDTokenDown amount) owing
  let left ← narrow (owing - burnt)
  let liabilities :=
    if left > 0 then w.positions.liabilities.insert index left
    else w.positions.liabilities.erase index
  let rest ← narrow (held - amount)
  let spend ← addTo w.spend asset amount
  return { positions := { w.positions with liabilities }
           wallet := w.wallet.insert asset rest
           actions := w.actions ++ [.repay asset amount]
           spend }

/-- A `WithdrawAll` of one lot asset whose reserve has no collateral factor. -/
def withdrawLot (inputs : FillInputs) (w : Working) (asset : String) : Except MathError Working := do
  let (index, reserve) ← reserveFor inputs asset
  if reserve.config.cFactor = 0 then
    return { w with positions := { w.positions with collateral := w.positions.collateral.erase index }
                    actions := w.actions ++ [.withdrawAll asset] }
  return w

/-- What the wallet holds of the primary after the repays, never negative. -/
def primaryLeft (terms : FillTerms) (w : Working) : Int := max (w.wallet.getD terms.primaryAsset 0) 0

/-- A `SupplyCollateral` of `supply` of the primary, clamped to what the
wallet has left and only when it mints at least one b-token. -/
def supplyPrimary (terms : FillTerms) (inputs : FillInputs) (w : Working) (supply : Int) :
    Except MathError Working := do
  let supply := min supply (primaryLeft terms w)
  if supply > 0 then
    let (index, reserve) ← reserveFor inputs terms.primaryAsset
    let bTokens ← reserve.toBTokenDown supply
    if bTokens > 0 then
      let collateral ← addTo w.positions.collateral index bTokens
      let spend ← addTo w.spend terms.primaryAsset supply
      return { w with positions := { w.positions with collateral }
                      actions := w.actions ++ [.supplyCollateral terms.primaryAsset supply]
                      spend }
  return w

/-- The reserves a fill is valued against. A fill the scaling leaves no
remainder of is the one the contract deletes the auction on, and runs the
borrower's default path for; a partial one is valued as read. -/
def valuationReserves (inputs : FillInputs) (scaled : ScaledAuction) :
    Except MathError (BTreeMap Nat Reserve) :=
  if scaled.remaining.isNone then defaultedReserves inputs scaled.toFill else .ok inputs.reserves

/-- Projects a fill of `percent` at `ledger` exactly, with the requests after
it in the order the executor sends them, and values the result. -/
def project (terms : FillTerms) (inputs : FillInputs) (ledger : Nat) (percent : FillPercent)
    (supply : Int) : Except MathError Projection := do
  let ⟨toFill, remaining⟩ ← scaleAuction inputs.auction ledger percent.get
  let collateral ← toFill.lot.toList.foldlM (takeOver inputs) inputs.filler.collateral
  let liabilities ← toFill.bid.toList.foldlM (takeOver inputs) inputs.filler.liabilities
  let w : Working :=
    { positions := { inputs.filler with collateral, liabilities }
      wallet := inputs.wallet, actions := [], spend := ∅ }
  let w ← toFill.bid.toList.foldlM (repayBid inputs) w
  let w ← toFill.lot.keys.foldlM (withdrawLot inputs) w
  let primaryAvailable := primaryLeft terms w
  let w ← supplyPrimary terms inputs w supply
  let reserves ← valuationReserves inputs ⟨toFill, remaining⟩
  let data ← calculatePositionData reserves inputs.prices w.positions
  pure { toFill, positions := w.positions, actions := w.actions, spend := w.spend
         primaryAvailable, data }

/-- Whether a projection is one the contract accepts and the operator wants. -/
def healthy (terms : FillTerms) (projection : Projection) : Except MathError Bool := do
  if projection.positions.liabilities.isEmpty then
    return true
  -- `&&` is lazy, but its right side cannot fail.
  let under ← projection.data.isHfUnder terms.healthFloor
  return !under && decide (projection.data.collateralBase ≥ terms.minCollateral)

/-- Whether a projection breaks `max_positions` as `require_under_max` does:
only a count the fill raises, and raises past the cap, is refused. -/
def overPositions (terms : FillTerms) (inputs : FillInputs) (projection : Projection) : Bool :=
  let before := inputs.filler.effectiveCount
  let after := projection.positions.effectiveCount
  decide (after > before) && (decide (after > u32Max) || decide (after > terms.maxPositions))

/-- The primary asset, in its underlying, that would close a projection's
shortfall. -/
def supplyFor (terms : FillTerms) (inputs : FillInputs) (data : PositionData) :
    Except MathError Int := do
  let wanted := max (← mulCeil data.liabilityBase terms.healthFloor SCALAR_7) terms.minCollateral
  let shortfall := max (← narrow (wanted - data.collateralBase)) 0
  if shortfall = 0 then
    return 0
  let (_, reserve) ← reserveFor inputs terms.primaryAsset
  let cFactor : Int := reserve.config.cFactor
  if cFactor = 0 then
    return 0
  let price ← inputs.prices.price reserve.asset
  let underlying ← divCeil (← mulCeil shortfall reserve.scalar price) cFactor SCALAR_7
  narrow (underlying + SUPPLY_ROUNDING_ALLOWANCE)

/-- Whether a supply of `amount` leaves `total_supply` within the cap. -/
def fits (reserve : Reserve) (amount : Int) : Except MathError Bool := do
  let minted ← reserve.toBTokenDown amount
  let after ← narrow (reserve.data.bSupply + minted)
  return decide ((← reserve.toAssetFromBToken after) ≤ reserve.config.supplyCap)

/-- `supply_headroom`'s loop: the largest amount in `low..=high` that fits,
given that `low` does. `(high - low) & 1` is the width's last bit. -/
def headroomSearch (reserve : Reserve) (low high : Int) : Except MathError Int :=
  if low < high then do
    let mid := low + (high - low) / 2 + (high - low) % 2
    if ← fits reserve mid then
      headroomSearch reserve mid high
    else
      headroomSearch reserve low (mid - 1)
  else
    .ok low
termination_by (high - low).toNat
decreasing_by all_goals omega

/-- The largest underlying amount that can be supplied without the
contract's `ExceededSupplyCap`. -/
def supplyHeadroom (reserve : Reserve) (wanted : Int) : Except MathError Int := do
  if wanted ≤ 0 then
    return 0
  if ← fits reserve wanted then
    return wanted
  headroomSearch reserve 0 wanted

/-- The first candidate of a search whose exact projection is healthy. -/
def firstHealthy {α : Type} (terms : FillTerms) (projectAt : α → Except MathError Projection) :
    List α → Except MathError (Option (α × Projection))
  | [] => .ok none
  | candidate :: rest => do
    let projection ← projectAt candidate
    if ← healthy terms projection then
      return some (candidate, projection)
    firstHealthy terms projectAt rest

/-- `(1..below).rev()` as fill percents. -/
def percentsBelow (below : FillPercent) : List FillPercent :=
  (List.range below.get).reverse.filterMap fun value =>
    if h : 1 ≤ value ∧ value ≤ 100 then some ⟨value, h.1, h.2⟩ else none

/-- The largest percent below `below` whose exact projection at `ledger` is
healthy, searched downwards. -/
def largestHealthyPercent (terms : FillTerms) (inputs : FillInputs) (ledger : Nat)
    (below : FillPercent) (supply : Int) : Except MathError (Option (FillPercent × Projection)) :=
  firstHealthy terms (fun percent => project terms inputs ledger percent supply) (percentsBelow below)

/-- The first ledger after `after`, up to and including `last`, whose exact
projection at `max_percent` is healthy. -/
def firstHealthyLedger (terms : FillTerms) (inputs : FillInputs) (after last : Nat) (supply : Int) :
    Except MathError (Option (Nat × Projection)) :=
  if after + 1 > u32Max then
    .ok none
  else
    firstHealthy terms (fun ledger => project terms inputs ledger inputs.maxPercent supply)
      (List.range' (after + 1) (last - after))

/-- The projected health factor, `none` when the fill leaves no liabilities. -/
def Projection.health (projection : Projection) : Except MathError (Option Int) :=
  if projection.positions.liabilities.isEmpty then .ok none else projection.data.healthFactor

/-- The draft a healthy projection becomes. -/
def draft (inputs : FillInputs) (ledger : Nat) (percent : FillPercent) (projection : Projection) :
    Except MathError FillDraft := do
  let value ← calculatePositionData inputs.reserves inputs.prices
    (← auctionPositions projection.toFill inputs.assetIndex)
  let estProfit ← narrow (value.collateralRaw - value.liabilityRaw)
  let projectedHealth ← projection.health
  pure { fillLedger := ledger, percent, actions := projection.actions, toFill := projection.toFill
         lotValue := value.collateralRaw, bidValue := value.liabilityRaw, estProfit
         spend := projection.spend, projectedHealth }

/-- What a healthy projection answers with: the draft it becomes, or the skip
it turns out to be. Every plan leaves through here. -/
def settle (terms : FillTerms) (inputs : FillInputs) (ledger : Nat) (percent : FillPercent)
    (projection : Projection) : Except MathError PlannedFill := do
  if overPositions terms inputs projection then
    return .skip .tooManyPositions
  let draft ← draft inputs ledger percent projection
  if !terms.forceFill && decide (draft.estProfit ≤ 0) then
    return .skip .unprofitable
  return .fill draft

/-- The three variables `plan_fill`'s rounds carry. -/
structure Rounds where
  supply : Int := 0
  unfunded : Bool := false
  capped : Bool := false

/-- The skip the rounds end on: the cap takes precedence over the wallet. -/
def Rounds.skip (r : Rounds) : FillSkip :=
  if r.capped then .supplyCapped else if r.unfunded then .unfunded else .health

/-- The supply step of a round, when the pool permits one: how much more of
the primary to supply, and whether the wallet or the cap limited it. -/
def widenSupply (terms : FillTerms) (inputs : FillInputs) (projection : Projection) (r : Rounds) :
    Except MathError Rounds := do
  let wanted ← narrow (r.supply + (← supplyFor terms inputs projection.data))
  let (_, primary) ← reserveFor inputs terms.primaryAsset
  let room ← supplyHeadroom primary wanted
  pure { supply := min (min wanted projection.primaryAvailable) room
         unfunded := r.unfunded || decide (wanted > projection.primaryAvailable)
         capped := r.capped ||
           (decide (wanted > room) && decide (room < projection.primaryAvailable)) }

/-- The two searches a short round falls back on. -/
def searchCandidates (terms : FillTerms) (inputs : FillInputs) (ledger last : Nat) (r : Rounds) :
    Except MathError PlannedFill := do
  match ← largestHealthyPercent terms inputs ledger inputs.maxPercent r.supply with
  | some (lower, projection) => settle terms inputs ledger lower projection
  | none =>
    match ← firstHealthyLedger terms inputs ledger last r.supply with
    | some (later, projection) => settle terms inputs later inputs.maxPercent projection
    | none => pure (.skip r.skip)

/-- `plan_fill`'s rounds, `n` of them left. -/
def planRounds (terms : FillTerms) (inputs : FillInputs) (ledger last : Nat) :
    Nat → Rounds → Except MathError PlannedFill
  | 0, r => .ok (.skip r.skip)
  | n + 1, r => do
    let projection ← project terms inputs ledger inputs.maxPercent r.supply
    if overPositions terms inputs projection then
      return .skip .tooManyPositions
    if ← healthy terms projection then
      return ← settle terms inputs ledger inputs.maxPercent projection
    if terms.supplyAllowed then
      let wider ← widenSupply terms inputs projection r
      if wider.supply > r.supply then
        return ← planRounds terms inputs ledger last n wider
      -- `supply` keeps its value; only the two flags moved.
      return ← searchCandidates terms inputs ledger last { wider with supply := r.supply }
    searchCandidates terms inputs ledger last r

/-- The delay the objective aims at, before `force_fill`'s cap. -/
def objectiveDelay (terms : FillTerms) (whole : PositionData) : Except MathError Nat :=
  match terms.objective with
  | .freeFill => .ok RAMP_END_BLOCKS
  | .earliestProfitable =>
    fillDelay whole.collateralRaw whole.liabilityRaw terms.profitBps terms.forceFill

/-- Plans one fill: value the whole auction, pick the first candidate ledger,
then rounds of supply, lower percent and later ledger. -/
def planFill (terms : FillTerms) (inputs : FillInputs) : Except MathError PlannedFill := do
  let whole ← calculatePositionData inputs.reserves inputs.prices
    (← auctionPositions inputs.auction inputs.assetIndex)
  if whole.collateralRaw = 0 then
    return .skip .unprofitable
  let start := inputs.auction.block
  let earliest := max inputs.earliestLedger start
  let delay ← objectiveDelay terms whole
  let delay := if terms.forceFill then min delay FORCE_FILL_MAX_DELAY else delay
  let ledger := max (← addU32 start delay) earliest
  let reach := if terms.forceFill then FORCE_FILL_MAX_DELAY else RAMP_END_BLOCKS
  let last := max (← addU32 start reach) ledger
  planRounds terms inputs ledger last terms.planIterations {}

end BlendLiquidator
