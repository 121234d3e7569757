/-
The executor (`executor.rs`): one planned fill or unwind pass, from the
contract's judgment to the audit row, the submission and the settled
reservation.

Its world is the RPC the judgment is made with, the store's two statements and
the queue's answers; its state is the wallet's ledger and a record of what was
done. Encoding a `submit` is the XDR library's, and so a parameter.
-/
import BlendLiquidator.Inventory
import BlendLiquidator.Queue
import BlendLiquidator.Tracker
import BlendLiquidator.Unwind

namespace BlendLiquidator

open Oracle

/-! ## What is sent -/

/-- `WithdrawCollateral`'s "all": `i64::MAX`. -/
def WITHDRAW_ALL : Int := 9223372036854775807

def INVALID_HF : Nat := 1205
def MIN_COLLATERAL_NOT_MET : Nat := 1224

def FILL_RETRIES : Nat := 10
def UNWIND_RETRIES : Nat := 2

/-- The contract's `RequestType`. -/
inductive RequestType
  | supply
  | withdraw
  | supplyCollateral
  | withdrawCollateral
  | borrow
  | repay
  | fillUserLiquidationAuction
  | fillBadDebtAuction
  | fillInterestAuction
  | deleteLiquidationAuction
  deriving Repr, DecidableEq

/-- The name its `Debug` prints. -/
def RequestType.debug : RequestType → String
  | .supply => "Supply"
  | .withdraw => "Withdraw"
  | .supplyCollateral => "SupplyCollateral"
  | .withdrawCollateral => "WithdrawCollateral"
  | .borrow => "Borrow"
  | .repay => "Repay"
  | .fillUserLiquidationAuction => "FillUserLiquidationAuction"
  | .fillBadDebtAuction => "FillBadDebtAuction"
  | .fillInterestAuction => "FillInterestAuction"
  | .deleteLiquidationAuction => "DeleteLiquidationAuction"

/-- One entry of a `submit` call's request list (`Request`). -/
structure SubmitRequest where
  requestType : RequestType
  address : String
  amount : Int
  deriving Repr, DecidableEq

/-- A fill request carries a percent. -/
def SubmitRequest.fill (requestType : RequestType) (user : String) (percent : FillPercent) :
    Except XdrError SubmitRequest :=
  match requestType with
  | .fillUserLiquidationAuction | .fillBadDebtAuction | .fillInterestAuction => .ok ⟨requestType, user, percent.get⟩
  | other => .error (.shape "a fill request type" (.text other.debug))

/-- A planned fill, ready to execute. -/
structure FillPlan where
  pool : String
  user : String
  draft : FillDraft
  priority : Priority

/-- The `submit` requests one draft becomes: the fill first, then the draft's
actions in their order. -/
def fillRequests (user : String) (draft : FillDraft) : Except XdrError (List SubmitRequest) := do
  let fill ← SubmitRequest.fill .fillUserLiquidationAuction user draft.percent
  pure (fill :: draft.actions.map fun
    | .repay asset amount => ⟨.repay, asset, amount⟩
    | .withdrawAll asset => ⟨.withdrawCollateral, asset, WITHDRAW_ALL⟩
    | .supplyCollateral asset amount => ⟨.supplyCollateral, asset, amount⟩)

def unwindRequests (actions : List UnwindAction) : List SubmitRequest := actions.map fun
  | .repay asset amount => ⟨.repay, asset, amount⟩
  | .withdraw asset amount => ⟨.withdrawCollateral, asset, amount⟩
  | .withdrawAll asset => ⟨.withdrawCollateral, asset, WITHDRAW_ALL⟩

/-! ## The contract's judgment -/

/-- What the contract made of an operation it was shown. -/
inductive Judgment
  | accepted
  | refused (contractError : Option Nat) (message : String)
  | needsRestore
  deriving Repr, DecidableEq

namespace Submitter

variable (s : Submitter)

/-- What a simulation's end says of the operation. -/
def readJudgment : Except ChainError (SimulatedCall × Nat) → Except ChainError Judgment
  | .ok (call, _) => .ok (if call.restore.isSome then .needsRestore else .accepted)
  | .error (.simulation message contractError) => .ok (.refused contractError message)
  | .error other => .error other

/-- Builds unsigned, simulates, and answers what the contract said. -/
def simulateOnly (operation : Operation) : Run ChainError Judgment := do
  let account ← rpc fun m => m.account s.address
  let sequence ← Prog.lift (nextSequence account.sequence)
  let answer ← Prog.caught (s.simulateCall operation sequence account.latestLedger)
  Prog.lift (readJudgment answer)

end Submitter

/-! ## The executor -/

/-- The `fills` row. -/
structure FillRecord where
  pool : String
  account : String
  auctionType : AuctionType
  fillLedger : Nat
  percent : FillPercent
  bid : BTreeMap String Int
  lot : BTreeMap String Int
  bidValue : Int
  lotValue : Int
  estProfit : Int
  dryRun : Bool

/-- One fill this executor recorded, whether or not it was sent. -/
structure FillRecorded where
  fillId : Int
  simulated : Bool
  dryRun : Bool
  submission : Option TxOutcome
  deriving DecidableEq

inductive ExecOutcome
  | recorded (fill : FillRecorded)
  | replan (contractError : Nat)
  | refused (contractError : Option Nat)
  | stale
  deriving DecidableEq

inductive UnwindOutcome
  | planned (simulated : Bool)
  | submitted (outcome : TxOutcome)
  | refused (contractError : Option Nat)
  | stale
  deriving DecidableEq

inductive ExecutorError
  | store (error : StoreError)
  | chain (error : ChainError)
  | xdr (error : XdrError)
  | queue (error : QueueError)
  | mode (what : String)
  deriving Repr, DecidableEq

/-- What travels with a plan: a live reservation, or nothing. -/
inductive Settlement
  | live (reservation : Inventory.Reservation)
  | dryRun

/-- What becomes of the reservation a plan was holding. -/
inductive Settle
  | consume
  | release
  deriving Repr, DecidableEq

/-- What the executor did, in order. -/
inductive ExecAct
  | simulated (operation : Operation) (answer : Except ChainError Judgment)
  | recordedFill (record : FillRecord) (answer : Except StoreError Int)
  | enqueued (submission : Submission) (answer : Except QueueError TxOutcome)
  | attached (fillId : Int) (hash : TxHash) (answer : Except StoreError Bool)
  | settled (how : Settle)

/-- How the world would answer the executor at one moment. -/
structure ExecMoment where
  chain : Moment
  recordFill : Except StoreError Int
  attachFillTx : Except StoreError Bool
  queue : Except QueueError TxOutcome

structure ExecState where
  ledger : Inventory.Ledger
  acts : List ExecAct := []

abbrev Exec (ε α : Type) := Prog ExecMoment ExecState ε α

structure Executor where
  submitter : Option Submitter
  dryRun : Bool
  /-- `submit_op` of a pool, `from`, `spender`, `to` and requests. -/
  submitOp : String → String → String → String → List SubmitRequest → Except XdrError Operation

/-- Records what was done. -/
def execDid {ε : Type} (act : ExecAct) : Exec ε Unit := Prog.modify fun s => { s with acts := s.acts ++ [act] }

/-- A call on the record with its answer, a failure of it a value. -/
def execCall {ε ε' α : Type} (method : ExecMoment → Except ε α) (act : Except ε α → ExecAct) :
    Exec ε' (Except ε α) := do
  let answer ← Prog.ask method
  execDid (act answer)
  pure answer

/-- What the contract made of an operation, whatever was submitted. -/
inductive Judged
  | accepted (operation : Operation)
  | needsRestore (operation : Operation)
  | unsimulated
  | refused (contractError : Option Nat) (message : String)
  | unjudged

/-- What the queue made of a submission. -/
inductive Landed
  | outcome (outcome : TxOutcome)
  | stale
  | refused (contractError : Option Nat) (message : String)

def TxOutcome.hash : TxOutcome → TxHash
  | .succeeded hash _ _ | .failed hash _ _ _ | .expired hash _ _ | .unknown hash _ _ => hash

/-- What an outcome makes of the reservation: one that may yet land is taken
as landed. -/
def settleOf : TxOutcome → Settle
  | .succeeded _ _ _ | .unknown _ _ _ => .consume
  | .failed _ _ _ _ | .expired _ _ _ => .release

/-- Hands one submission to the queue and says what the reservation becomes,
from the chain's answer alone. -/
def enqueue (submission : Submission) : Exec Empty (Except ExecutorError Landed × Settle) := do
  match ← execCall ExecMoment.queue (.enqueued submission) with
  | .ok outcome => pure (.ok (.outcome outcome), settleOf outcome)
  | .error (.chain .badSequence) => pure (.ok .stale, .release)
  | .error (.chain (.simulation message contractError)) => pure (.ok (.refused contractError message), .release)
  | .error error => pure (.error (.queue error), .release)

/-- The two errors a lower percent can fix, and every other refusal. -/
def refusal (contractError : Option Nat) : ExecOutcome :=
  match contractError with
  | some code => if code = INVALID_HF ∨ code = MIN_COLLATERAL_NOT_MET then .replan code else .refused (some code)
  | none => .refused none

/-- A reservation settled, on the record. -/
def settleWith (how : Settle) (route : Inventory.Reservation → Inventory.Ledger → Inventory.Ledger)
    (reservation : Inventory.Reservation) : Exec Empty Unit :=
  Prog.modify fun s => { ledger := route reservation s.ledger, acts := s.acts ++ [.settled how] }

/-- Releases a reservation there may not be one of. -/
def release : Option Inventory.Reservation → Exec Empty Unit
  | some reservation => settleWith .release Inventory.Reservation.release reservation
  | none => pure ()

/-- Settles a reservation by what the chain did (`settle`). -/
def settleReservation (reservation : Option Inventory.Reservation) : Settle → Exec Empty Unit
  | .consume => match reservation with
    | some reservation => settleWith .consume Inventory.Reservation.consume reservation
    | none => pure ()
  | .release => release reservation

namespace Executor

variable (e : Executor)

/-- The filler's own address, when a key is configured. -/
def filler : Option String := e.submitter.map (·.address)

/-- The mode guards. A refusal releases the reservation it was handed. -/
def guard (settlement : Settlement) (armed : Bool) :
    Exec Empty (Except ExecutorError (Option Inventory.Reservation)) := do
  match settlement, e.dryRun with
  | .live reservation, true => do
    settleWith .release Inventory.Reservation.release reservation
    pure (.error (.mode "a live reservation was given to a dry-run executor; dry-run spends nothing, so the reservation is released rather than held"))
  | .dryRun, false =>
    pure (.error (.mode "a live executor was given no reservation; a fill that spends the wallet must hold one before it is sent"))
  | .live reservation, false => armedGuard (some reservation)
  | .dryRun, true => armedGuard none
where
  /-- A queue is refused to an executor that may not send. -/
  armedGuard (reservation : Option Inventory.Reservation) :
      Exec Empty (Except ExecutorError (Option Inventory.Reservation)) := do
    if armed ∧ e.dryRun then
      release reservation
      pure (.error (.mode "a submission queue was given to a dry-run executor; dry-run sends nothing, so the queue is refused rather than used"))
    else if armed ∧ e.submitter.isNone then
      release reservation
      pure (.error (.mode "a submission queue was given to an executor with no signer, so nothing could be judged before it was sent"))
    else
      pure (.ok reservation)

/-- The exact `submit` the queue would send, judged by the contract. -/
def judgeOperation (pool : String) (requests : List SubmitRequest) (armed : Bool) : Exec ExecutorError Judged :=
  match e.submitter with
  | none => pure .unsimulated
  | some submitter => do
    let filler := submitter.address
    let operation ← Prog.lift ((e.submitOp pool filler filler filler requests).mapError .xdr)
    let answer ← Prog.caught
      (Prog.within ExecMoment.chain (fun _ => []) (fun _ s => s) (submitter.simulateOnly operation))
    execDid (.simulated operation answer)
    match ← Prog.lift (answer.mapError .chain) with
    | .accepted => pure (.accepted operation)
    | .refused contractError message => pure (.refused contractError message)
    | .needsRestore => pure (if armed then .needsRestore operation else .unjudged)

/-- The answer for a fill this executor recorded. -/
def recorded (fillId : Int) (simulated : Bool) (submission : Option TxOutcome) : ExecOutcome :=
  .recorded { fillId, simulated, dryRun := e.dryRun, submission }

/-- A fill's judgment: what it is recorded and sent with, or its refusal. -/
def judge (plan : FillPlan) (armed : Bool) :
    Exec ExecutorError (Except ExecOutcome (Option Operation × Bool)) := do
  let requests ← Prog.lift ((fillRequests plan.user plan.draft).mapError .xdr)
  match ← e.judgeOperation plan.pool requests armed with
  | .accepted operation => pure (.ok (some operation, true))
  | .needsRestore operation => pure (.ok (some operation, false))
  | .unsimulated => pure (.ok (none, false))
  | .unjudged => pure (.error (.refused none))
  | .refused contractError _ => pure (.error (refusal contractError))

/-- The row a fill is recorded as. -/
def fillRecord (plan : FillPlan) : FillRecord where
  pool := plan.pool
  account := plan.user
  auctionType := .userLiquidation
  fillLedger := plan.draft.fillLedger
  percent := plan.draft.percent
  bid := plan.draft.toFill.bid
  lot := plan.draft.toFill.lot
  bidValue := plan.draft.bidValue
  lotValue := plan.draft.lotValue
  estProfit := plan.draft.estProfit
  dryRun := e.dryRun

/-- Hands a recorded fill to the queue and names its transaction on the row.
The settlement is the chain's answer's, whatever the row's write does. -/
def submitRecorded (plan : FillPlan) (fillId : Int) (simulated : Bool) (operation : Operation) :
    Exec Empty (Except ExecutorError ExecOutcome × Settle) := do
  let (landed, settle) ← enqueue { operation, priority := plan.priority, retries := FILL_RETRIES }
  match landed with
  | .ok (.outcome outcome) => do
    match ← execCall ExecMoment.attachFillTx (.attached fillId outcome.hash) with
    | .ok _ => pure (.ok (e.recorded fillId simulated (some outcome)), settle)
    | .error error => pure (.error (.store error), settle)
  | .ok .stale => pure (.ok .stale, settle)
  | .ok (.refused contractError _) => pure (.ok (refusal contractError), settle)
  | .error error => pure (.error error, settle)

/-- Steps 2 to 4 of a fill, and what the reservation becomes. -/
def run (plan : FillPlan) (armed : Bool) : Exec Empty (Except ExecutorError ExecOutcome × Settle) := do
  match ← Prog.caught (e.judge plan armed) with
  | .error error => pure (.error error, .release)
  | .ok (.error outcome) => pure (.ok outcome, .release)
  | .ok (.ok (operation, simulated)) => do
    match ← execCall ExecMoment.recordFill (.recordedFill (e.fillRecord plan)) with
    | .error error => pure (.error (.store error), .release)
    | .ok fillId =>
      match armed, operation with
      | true, some operation => e.submitRecorded plan fillId simulated operation
      | _, _ => pure (.ok (e.recorded fillId simulated none), .release)

/-- One planned fill. -/
def execute (plan : FillPlan) (settlement : Settlement) (armed : Bool) :
    Exec Empty (Except ExecutorError ExecOutcome) := do
  match ← e.guard settlement armed with
  | .error error => pure (.error error)
  | .ok reservation => do
    let (answer, settled) ← e.run plan armed
    settleReservation reservation settled
    pure answer

/-- Steps 2 to 4 of an unwind: nothing is recorded but the log's line. -/
def runUnwind (pool : String) (plan : UnwindPlan) (armed : Bool) :
    Exec Empty (Except ExecutorError UnwindOutcome × Settle) := do
  match ← Prog.caught (e.judgeOperation pool (unwindRequests plan.actions) armed) with
  | .error error => pure (.error error, .release)
  | .ok .unjudged => pure (.ok (.refused none), .release)
  | .ok (.refused contractError _) => pure (.ok (.refused contractError), .release)
  | .ok (.accepted operation) => submit operation true
  | .ok (.needsRestore operation) => submit operation false
  | .ok .unsimulated => pure (.ok (.planned false), .release)
where
  submit (operation : Operation) (simulated : Bool) : Exec Empty (Except ExecutorError UnwindOutcome × Settle) :=
    if armed then do
      let (landed, settle) ← enqueue { operation, priority := .normal, retries := UNWIND_RETRIES }
      match landed with
      | .ok (.outcome outcome) => pure (.ok (.submitted outcome), settle)
      | .ok .stale => pure (.ok .stale, settle)
      | .ok (.refused contractError _) => pure (.ok (.refused contractError), settle)
      | .error error => pure (.error error, settle)
    else
      pure (.ok (.planned simulated), .release)

/-- One unwind pass. An idle plan is not sent. -/
def unwind (pool : String) (plan : UnwindPlan) (settlement : Settlement) (armed : Bool) :
    Exec Empty (Except ExecutorError UnwindOutcome) := do
  match ← e.guard settlement armed with
  | .error error => pure (.error error)
  | .ok reservation =>
    if plan.isIdle then do
      release reservation
      pure (.ok (.planned false))
    else do
      let (answer, settled) ← e.runUnwind pool plan armed
      settleReservation reservation settled
      pure answer

end Executor

end BlendLiquidator
