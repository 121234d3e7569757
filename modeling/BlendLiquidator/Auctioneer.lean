/-
The auctioneer acting on one decision (`auctioneer.rs`): the contract judges
the operation by simulation, the decision is recorded, and what was judged is
handed to the queue.

Acting is a program of calls. What the simulations, the store and the queue
answer is the world's.
-/
import BlendLiquidator.AuctionTable
import BlendLiquidator.Executor
import BlendLiquidator.Recheck

namespace BlendLiquidator

open Calls

/-! ## Operations -/

/-- What the XDR library makes of a strkey, and of a contract call's three
parts. -/
structure XdrLibrary where
  scAddress : String → Except XdrError String
  invokeContract : (contract function : String) → (args : List ScVal) → String

namespace XdrLibrary

variable (xdr : XdrLibrary)

/-- A strkey as an `ScVal::Address`. -/
def address (strkey : String) : Except XdrError ScVal := do
  pure (.address (← xdr.scAddress strkey))

/-- One operation calling `function` on `contract`, with no authorisation. -/
def invokeContractOp (contract function : String) (args : List ScVal) : Except XdrError Operation := do
  pure (.invokeHostFunction (xdr.invokeContract (← xdr.scAddress contract) function args) [])

/-- `new_auction(auction_type, user, bid, lot, percent)`. -/
def newAuctionOp (pool user : String) (bid lot : List String) (percent : FillPercent) : Except XdrError Operation := do
  let user ← xdr.address user
  let bid ← bid.mapM xdr.address
  let lot ← lot.mapM xdr.address
  xdr.invokeContractOp pool "new_auction"
    [.u32 (.ofNat AuctionType.userLiquidation.code), user, .vec (.ofList bid), .vec (.ofList lot), .u32 (.ofNat percent.get)]

/-- `bad_debt(user)`. -/
def badDebtOp (pool user : String) : Except XdrError Operation := do
  xdr.invokeContractOp pool "bad_debt" [← xdr.address user]

end XdrLibrary

/-! ## Calls -/

/-- The `creations` row. -/
structure CreationRecord where
  kind : CreationKind
  pool : String
  account : String
  percent : Option FillPercent
  bid : List String
  lot : List String
  ledger : Nat
  dryRun : Bool
  txHash : Option String
  deriving DecidableEq

/-- A call of an action. -/
inductive ActCall
  | simulateOnly (operation : Operation)
  | recordCreation (record : CreationRecord)
  | enqueue (submission : Submission)
  | attachCreationTx (creationId : Int) (hash : TxHash)
  | auctions (call : AuctionCall)

abbrev ActCall.Answer : ActCall → Type
  | .simulateOnly _ => Except ChainError Judgment
  | .recordCreation _ => Except StoreError Int
  | .enqueue _ => Except QueueError TxOutcome
  | .attachCreationTx _ _ => Except StoreError Bool
  | .auctions call => call.Answer

abbrev Acting (α : Type) := Proc ActCall ActCall.Answer AuctioneerError α

/-! ## Acting -/

def INVALID_LIQ_TOO_LARGE : Nat := 1213
def INVALID_LIQ_TOO_SMALL : Nat := 1214
def AUCTION_IN_PROGRESS : Nat := 1212
def CREATION_RETRIES : Nat := 3

/-- The auctioneer, as far as acting goes: whether it has a key to simulate
with, the configured mode, and how long the percent walk may be. -/
structure Auctioneer where
  xdr : XdrLibrary
  submitter : Bool
  dryRun : Bool
  planIterations : Nat

namespace Auctioneer

variable (auctioneer : Auctioneer)

/-- What a simulation says, or its failure. -/
def simulate (operation : Operation) : Acting Judgment := do
  Proc.lift ((← Proc.call (ActCall.simulateOnly operation)).mapError .chain)

/-- An operation, or the chain error that there is none. -/
def built (operation : Except XdrError Operation) : Acting Operation :=
  Proc.lift (operation.mapError fun error => .chain (.xdr error))

/-- Whether the contract accepts `bad_debt`, and whether it was asked. -/
def acceptBadDebt (operation : Operation) : Acting (Option Bool) :=
  if auctioneer.submitter then do
    match ← simulate operation with
    | .accepted => pure (some true)
    | .refused _ _ | .needsRestore => pure none
  else
    pure (some false)

/-- A refusal the walk does not adjust the percent for: an auction the chain
already holds is adopted. -/
def refusePercent (pool account : String) (contractError : Option Nat) :
    Acting (Option (FillPercent × Operation × Bool)) := do
  if contractError = some AUCTION_IN_PROGRESS then
    (adopt pool account).embed ActCall.auctions (fun _ answer => answer) .store
  pure none

/-- The walk's attempts from a percent on. -/
def walkPercent (pool account : String) (plan : LiquidationPlan) :
    Nat → FillPercent → Acting (Option (FillPercent × Operation × Bool))
  | 0, _ => pure none
  | iterations + 1, percent => do
    let operation ← built (auctioneer.xdr.newAuctionOp pool account plan.bid plan.lot percent)
    match ← simulate operation with
    | .accepted => pure (some (percent, operation, true))
    | .refused contractError _ =>
      if contractError = some INVALID_LIQ_TOO_SMALL then
        match FillPercent.tryFrom (percent.get + 1) with
        | some next => walkPercent pool account plan iterations next
        | none => pure none
      else if contractError = some INVALID_LIQ_TOO_LARGE then
        match FillPercent.tryFrom (percent.get - 1) with
        | some next => walkPercent pool account plan iterations next
        | none => pure none
      else
        refusePercent pool account contractError
    | .needsRestore => pure none

/-- Walks a plan's percent to one the contract accepts; with no key, the plan's
own, unsimulated. -/
def acceptPercent (pool account : String) (plan : LiquidationPlan) : Acting (Option (FillPercent × Operation × Bool)) :=
  if auctioneer.submitter then
    auctioneer.walkPercent pool account plan auctioneer.planIterations plan.percent
  else do
    let operation ← built (auctioneer.xdr.newAuctionOp pool account plan.bid plan.lot plan.percent)
    pure (some (plan.percent, operation, false))

/-- Hands a recorded creation to the queue, then attaches the transaction it
became. -/
def submitRecorded (creationId : Int) (operation : Operation) : Acting TxOutcome := do
  let outcome ← Proc.lift ((← Proc.call (ActCall.enqueue
    { operation, priority := .normal, retries := CREATION_RETRIES })).mapError .queue)
  let _attached ← Proc.lift ((← Proc.call (ActCall.attachCreationTx creationId outcome.hash)).mapError .store)
  pure outcome

/-- What is recorded and sent for an accepted decision. -/
structure Accepted where
  kind : CreationKind
  percent : Option FillPercent
  bid : List String
  lot : List String
  operation : Operation
  simulated : Bool

/-- What the contract accepts of a decision, or how the action ends. -/
def accept (pool account : String) : Decision → Acting (Except ActOutcome Accepted)
  | .skip reason => pure (.error (.skipped reason))
  | .badDebt => do
    let operation ← built (auctioneer.xdr.badDebtOp pool account)
    match ← auctioneer.acceptBadDebt operation with
    | some simulated => pure (.ok ⟨.badDebt, none, [], [], operation, simulated⟩)
    | none => pure (.error .refused)
  | .liquidate plan => do
    match ← auctioneer.acceptPercent pool account plan with
    | some (percent, operation, simulated) => pure (.ok ⟨.auction, some percent, plan.bid, plan.lot, operation, simulated⟩)
    | none => pure (.error .refused)

/-- The row of an accepted decision. -/
def creation (pool account : String) (tick : LedgerTick) (accepted : Accepted) : CreationRecord :=
  { kind := accepted.kind, pool, account, percent := accepted.percent, bid := accepted.bid, lot := accepted.lot
    ledger := tick.sequence, dryRun := auctioneer.dryRun, txHash := none }

/-- Records an accepted decision, and submits it where there is a queue. -/
def record (pool account : String) (tick : LedgerTick) (submit : Bool) (accepted : Accepted) : Acting ActOutcome := do
  let record := auctioneer.creation pool account tick accepted
  let creationId ← Proc.lift ((← Proc.call (ActCall.recordCreation record)).mapError .store)
  let submission ← if submit then some <$> submitRecorded creationId accepted.operation else pure none
  pure (.recorded { kind := accepted.kind, account, percent := accepted.percent, simulated := accepted.simulated, creationId
                    dryRun := record.dryRun, submission })

/-- Acts on one decision; `submit` is whether a queue was given. -/
def act (pool account : String) (decision : Decision) (tick : LedgerTick) (submit : Bool) : Acting ActOutcome := do
  if submit && !auctioneer.submitter then
    Proc.lift (.error (.chain (.config
      "a submission queue was given to an auctioneer with no signer, so nothing could be judged before it was sent")))
  else if submit && auctioneer.dryRun then
    Proc.lift (.error (.chain (.config
      "a submission queue was given to a dry-run auctioneer; dry-run sends nothing, so the queue is refused rather than used")))
  else
    match ← auctioneer.accept pool account decision with
    | .error outcome => pure outcome
    | .ok accepted => auctioneer.record pool account tick submit accepted

end Auctioneer

end BlendLiquidator
