/-
Dutch-auction scaling, ported from the contract's `scale_auction`
(`math/auction.rs`).

An auction runs for 400 blocks from its start: over the first 200 the
filler receives a growing share of the lot for the whole bid, over the next
200 the whole lot for a shrinking bid, and from 400 the bid is nothing.
Bids round up and lots round down.
-/
import BlendLiquidator.Reserve

namespace BlendLiquidator

/-- Half a percent at 7 decimals: the per-block step of both ramps. -/
def PER_BLOCK_SCALAR : Int := 50000
/-- The block at which the lot ramp ends and the bid ramp begins. -/
def RAMP_BLOCKS : Nat := 200
/-- The block at which the bid ramp ends and the fill is free. -/
def RAMP_END_BLOCKS : Nat := 400

/-- An auction as the contract stores it: what the filler pays (`bid`), what
it receives (`lot`), and the block the auction began on. -/
structure AuctionData where
  bid : BTreeMap String Int := ∅
  lot : BTreeMap String Int := ∅
  block : Nat := 0

/-- True when neither side has anything left. -/
def AuctionData.isEmpty (a : AuctionData) : Bool := a.bid.isEmpty && a.lot.isEmpty

/-- What a fill exchanges, and what it leaves on the ledger; `none` when the
fill closes the auction. -/
structure ScaledAuction where
  toFill : AuctionData
  remaining : Option AuctionData

/-- The bid modifier at 7 decimals: 100% for 200 blocks, then down to 0%
at 400. -/
def bidModifier (blockDelta : Nat) : Int :=
  if blockDelta ≤ RAMP_BLOCKS then
    SCALAR_7
  else if blockDelta < RAMP_END_BLOCKS then
    SCALAR_7 - ((blockDelta - RAMP_BLOCKS : Nat) : Int) * PER_BLOCK_SCALAR
  else
    0

/-- The lot modifier at 7 decimals: up to 100% over 200 blocks. -/
def lotModifier (blockDelta : Nat) : Int :=
  if blockDelta ≤ RAMP_BLOCKS then
    (blockDelta : Int) * PER_BLOCK_SCALAR
  else
    SCALAR_7

/-- What scaling has put on the two sides of one loop so far. -/
structure Split where
  toFill : BTreeMap String Int := ∅
  remaining : BTreeMap String Int := ∅

/-- One asset of `scale_auction`'s two loops, which differ in the rounding
and the modifier alone: the percent taken, then the share of it the block's
modifier exchanges. Neither side stores a zero. -/
def splitAsset (round : Int → Int → Int → Except MathError Int) (percentScaled scale : Int)
    (split : Split) (entry : String × Int) : Except MathError Split := do
  let (asset, amount) := entry
  let toFillBase ← round amount percentScaled SCALAR_7
  let remainingBase ← narrow (amount - toFillBase)
  let remaining :=
    if remainingBase > 0 then split.remaining.insert asset remainingBase else split.remaining
  let scaled ← round toFillBase scale SCALAR_7
  let toFill := if scaled > 0 then split.toFill.insert asset scaled else split.toFill
  pure { toFill, remaining }

/-- Scales `auction` for a fill of `percentFilled` percent at `fillBlock`. -/
def scaleAuction (auction : AuctionData) (fillBlock percentFilled : Nat) :
    Except MathError ScaledAuction := do
  if percentFilled = 0 ∨ percentFilled > 100 then
    throw (.invalidInput "percent_filled must be 1..=100")
  if fillBlock < auction.block then
    throw (.invalidInput "fill_block precedes the auction block")
  let blockDelta := fillBlock - auction.block
  let bidScale := bidModifier blockDelta
  let lotScale := lotModifier blockDelta
  let percentScaled ← narrow ((percentFilled : Int) * 100000)
  let bid ← auction.bid.toList.foldlM (splitAsset mulCeil percentScaled bidScale) {}
  let lot ← auction.lot.toList.foldlM (splitAsset mulFloor percentScaled lotScale) {}
  let toFill : AuctionData := { bid := bid.toFill, lot := lot.toFill, block := auction.block }
  let remaining : AuctionData := { bid := bid.remaining, lot := lot.remaining, block := auction.block }
  pure { toFill, remaining := if remaining.isEmpty then none else some remaining }

end BlendLiquidator
