/-
The auctioneer deciding a batch (`Auctioneer::decide`, `is_own_account`,
`decide_one`): one snapshot for the whole batch, and for each borrower its row
of the auctions table and then arithmetic on the snapshot.

A snapshot and a row are each one call here; what a snapshot is made of is the
reader's (`PoolReader`). The loop over the batch is one pass: the source fills
the own accounts' slots first, which makes no call, and the others' then, in the
same order.
-/
import BlendLiquidator.Handlers
import BlendLiquidator.LiquidationFacts
import BlendLiquidator.PoolReader
import BlendLiquidator.Recheck

namespace BlendLiquidator

open Calls

/-- A call of a batch's decision. -/
inductive DecideCall
  | snapshot (pool : String) (users : List String)
  | auction (pool account : String) (auctionType : AuctionType)
  deriving DecidableEq

abbrev DecideCall.Answer : DecideCall → Type
  | .snapshot _ _ => Except ChainError FullSnapshot
  | .auction _ _ _ => Except StoreError (Option TrackedAuction)

abbrev Judging (α : Type) := Proc DecideCall DecideCall.Answer AuctioneerError α

/-- `AuctioneerConfig`, as far as deciding goes. -/
structure AuctioneerConfig where
  liquidationHealthFactor : Int
  targetHealthFactor : Int
  ownAddresses : BTreeSet String

/-- A plan fails by its arithmetic alone: no slice of it is out of range. -/
def plannedOrError (data : PositionData) (collateral liabilities : List PositionValue) (targetHealth : Int)
    (maxPositions : Nat) : Except MathError (Option LiquidationPlan) :=
  match h : planLiquidation data collateral liabilities targetHealth maxPositions with
  | .ok plan => .ok plan
  | .error (.math error) => .error error
  | .error .outOfRange => (planLiquidation_ne_outOfRange h).elim

namespace AuctioneerConfig

variable (c : AuctioneerConfig)

/-- The pool's own address, or one the bot signs with. -/
def isOwnAccount (pool account : String) : Bool := account = pool || c.ownAddresses.contains account

/-- `decide_one` from the snapshot on. -/
def judge (snapshot : FullSnapshot) (reserves : BTreeMap Nat Reserve) (valuedAt : Nat) (account : String) :
    Except AuctioneerError Decision := do
  match ← (snapshot.positionData account valuedAt).mapError .chain with
  | none => pure (.skip .noLiabilities)
  | some data =>
    if data.liabilityBase > 0 ∧ data.collateralRaw = 0 then
      pure .badDebt
    else
      match ← data.healthFactor.mapError .math with
      -- collateral or plain supply alone
      | none => pure (.skip .noLiabilities)
      | some health => do
        let normalized ← (mulFloor health SCALAR_7 data.scalar).mapError .math
        if normalized > c.liquidationHealthFactor then
          pure (.skip .healthy)
        else
          match snapshot.positions[account]? with
          | none => pure (.skip .noLiabilities)
          | some positions => do
            let (collateral, liabilities) ← (positionValues reserves snapshot.prices positions).mapError .math
            let plan ← (plannedOrError data collateral liabilities c.targetHealthFactor
              snapshot.poolInstance.config.maxPositions).mapError .math
            match plan with
            | some plan => pure (.liquidate plan)
            | none => pure (.skip .noPlan)

/-- One borrower's decision against a snapshot and its accrued reserves. -/
def decideOne (pool : String) (snapshot : FullSnapshot) (reserves : BTreeMap Nat Reserve) (valuedAt : Nat)
    (account : String) : Judging Decision :=
  if c.isOwnAccount pool account then
    pure (.skip .ownAccount)
  else do
    match ← Proc.lift ((← Proc.call (DecideCall.auction pool account .userLiquidation)).mapError .store) with
    | some _ => pure (.skip .auctionOpen)
    | none => Proc.lift (c.judge snapshot reserves valuedAt account)

/-- One borrower's slot of the batch: empty where it alone failed. Only a store
failure is the batch's. -/
def slot (pool : String) (snapshot : FullSnapshot) (reserves : BTreeMap Nat Reserve) (valuedAt : Nat)
    (account : String) : Judging (Option (String × Decision)) :=
  if c.isOwnAccount pool account then
    pure (some (account, .skip .ownAccount))
  else do
    match ← (c.decideOne pool snapshot reserves valuedAt account).caught with
    | .ok decision => pure (some (account, decision))
    | .error (.store error) => Proc.lift (.error (.store error))
    | .error _ => pure none

/-- The slots that were filled, in the batch's order. -/
def slots (pool : String) (snapshot : FullSnapshot) (reserves : BTreeMap Nat Reserve) (valuedAt : Nat) :
    List String → Judging (List (String × Decision))
  | [] => pure []
  | account :: rest => do
    let first ← c.slot pool snapshot reserves valuedAt account
    let others ← slots pool snapshot reserves valuedAt rest
    pure (first.toList ++ others)

/-- The accounts a decision reads the chain for. -/
def pending (pool : String) (accounts : List String) : List String :=
  accounts.filter fun account => !c.isOwnAccount pool account

/-- Decides each of `accounts`, against one snapshot; a batch of own accounts
reads none. -/
def decide (pool : String) (accounts : List String) (tick : LedgerTick) : Judging (List (String × Decision)) :=
  if accounts.isEmpty then
    pure []
  else if (c.pending pool accounts).isEmpty then
    pure (accounts.map fun account => (account, .skip .ownAccount))
  else do
    let snapshot ← Proc.lift ((← Proc.call (DecideCall.snapshot pool (c.pending pool accounts))).mapError .chain)
    let valuedAt := snapshot.valuedAt tick.closeTime
    let reserves ← Proc.lift ((snapshot.accruedReserves valuedAt).mapError .math)
    c.slots pool snapshot reserves valuedAt accounts

end AuctioneerConfig

end BlendLiquidator
