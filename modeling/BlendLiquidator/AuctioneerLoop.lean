/-
The auctioneer's task (`auctioneer_loop` and what it runs): it waits for the
tick the tracker publishes, and takes every configured pool's turn at it.

A pool's turn is the recheck's own (`Recheck`), with the calls it leaves to the
auctioneer carried out: a batch is decided by `decide`, a decision is acted on
by `act` and counted, and the oracle scan reads a snapshot and compares its
prices with the pool's watch. The task's state goes from one call to the next.
-/
import BlendLiquidator.Auctioneer
import BlendLiquidator.Decide
import BlendLiquidator.Filler
import BlendLiquidator.PriceWatch
import BlendLiquidator.Service

namespace BlendLiquidator

open Calls

/-! ## Calls -/

/-- Whether an attempted creation went through (`metrics::Attempt`). -/
inductive Attempt
  | attempted
  | succeeded
  | failed
  deriving Repr, DecidableEq

/-- A call of the auctioneer's task. -/
inductive TaskCall
  /-- The wait for a tick newer than the last one taken: whether there is one. -/
  | changed
  | borrow
  | stopping
  | write (statement : UserStatement)
  | needing (pool : String) (limit : Nat)
  | below (pool : String) (threshold : Int) (limit : Nat) (after : Option (Int ×ₗ String))
  | reading (call : DecideCall)
  | acting (call : ActCall)
  | creation (attempt : Attempt)
  | notify (notification : Notification)

abbrev TaskCall.Answer : TaskCall → Type
  | .changed | .stopping => Bool
  | .borrow => LedgerTick
  | .write _ => Except StoreError Unit
  | .needing _ _ | .below _ _ _ _ => Except StoreError (List TrackedUser)
  | .reading call => call.Answer
  | .acting call => call.Answer
  | .creation _ | .notify _ => Unit

/-- Only a store failure ends the task. -/
abbrev Tasking (α : Type) := Proc TaskCall TaskCall.Answer StoreError α

/-! ## What the task is made of -/

/-- Its timings and thresholds. -/
structure AuctioneerCadence where
  refreshBatch : Nat
  oracleScanLedgers : Nat
  oraclePhase : Nat
  fullScanLedgers : Nat
  fullPhase : Nat
  scanHealthFactor : Int
  priceDeltaBps : Nat
  startupDelayLedgers : Nat

/-- What it carries from one tick to the next. -/
structure AuctioneerState where
  priceWatches : BTreeMap String PriceWatch := ∅
  lastOracleScan : BTreeMap String Nat := ∅
  /-- The pools whose oracle scan has spent its one immediate retry. -/
  oracleScanRetried : BTreeSet String := ∅
  lastFullScan : BTreeMap String Nat := ∅
  gate : StartupGate := {}

/-- `AuctioneerContext`. -/
structure AuctioneerTask where
  pools : List String
  auctioneer : Auctioneer
  config : AuctioneerConfig
  cadence : AuctioneerCadence
  /-- Whether there is a queue to submit to. -/
  submissionQueue : Bool
  /-- How an error reads. -/
  display : ChainError → String

/-- A day, in seconds. -/
def PRICE_REFERENCE_STALE_AFTER_SECS : Nat := 86400

/-! ## Counting what was done -/

/-- What a landed creation is reported as. -/
def landedCreation (pool : String) (outcome : CreationOutcome) (ledger : Nat) : Notification :=
  match outcome.kind with
  | .auction =>
    let percent := match outcome.percent with
      | some percent => toString percent.get
      | none => "?"
    { kind := .auctionCreated, severity := .low, pool, account := some outcome.account
      message := "liquidation auction created at " ++ percent ++ "% in ledger " ++ toString ledger }
  | .badDebt =>
    { kind := .badDebtReported, severity := .medium, pool, account := some outcome.account
      message := "bad debt reported in ledger " ++ toString ledger }

/-- `note_creation`. -/
def noteCreation (pool : String) (outcome : CreationOutcome) : Tasking Unit := do
  Proc.call (TaskCall.creation .attempted)
  match outcome.submission with
  | some (.succeeded _ ledger _) => do
    Proc.call (TaskCall.creation .succeeded)
    Proc.call (TaskCall.notify (landedCreation pool outcome ledger))
  | some (.failed _ _ _ _) | some (.expired _ _ _) => Proc.call (TaskCall.creation .failed)
  | some (.unknown _ _ _) | none => pure ()

namespace AuctioneerTask

variable (task : AuctioneerTask)

/-- What a creation the queue dropped is reported as. -/
def droppedCreation (pool account : String) (error : ChainError) : Notification :=
  { kind := .submissionDropped, severity := .high, pool, account := some account
    message := "creation dropped by the queue: " ++ task.display error }

/-- `note_act`. -/
def noteAct (pool account : String) : Except AuctioneerError ActOutcome → Tasking Unit
  | .ok (.recorded outcome) => noteCreation pool outcome
  | .error (.queue (.chain error)) => do
    Proc.call (TaskCall.creation .attempted)
    Proc.call (TaskCall.creation .failed)
    Proc.call (TaskCall.notify (task.droppedCreation pool account error))
  | .ok (.skipped _) | .ok .refused | .error _ => pure ()

/-! ## The calls a turn makes -/

/-- A batch's decisions by account. -/
def decided (decisions : List (String × Decision)) (account : String) : Option Decision :=
  (decisions.find? fun decision => decision.1 = account).map (·.2)

def decide (pool : String) (batch : List TrackedUser) (tick : LedgerTick) :
    Tasking (Except AuctioneerError (String → Option Decision)) := do
  let decisions ← ((task.config.decide pool (batch.map (·.account)) tick).caught : Proc _ _ StoreError _).embed
    TaskCall.reading (fun _ answer => answer) id
  pure (decisions.map decided)

/-- Acts on one decision, with the queue where `submit` says so. -/
def act (submit : Bool) (pool account : String) (decision : Decision) (tick : LedgerTick) :
    Tasking (Except AuctioneerError ActOutcome) := do
  let acted ← ((task.auctioneer.act pool account decision tick submit).caught : Proc _ _ StoreError _).embed
    TaskCall.acting (fun _ answer => answer) id
  task.noteAct pool account acted
  pure acted

/-- The pool's oracle scan ran at a tick. -/
def scanned (pool : String) (tick : LedgerTick) (state : AuctioneerState) : AuctioneerState :=
  { state with
    lastOracleScan := state.lastOracleScan.insert pool tick.sequence
    oracleScanRetried := state.oracleScanRetried.erase pool }

/-- A read the ledger moved under is left unrecorded once, so that the next tick
is due. -/
def ledgerMoved (pool : String) (tick : LedgerTick) (state : AuctioneerState) : AuctioneerState :=
  if pool ∈ state.oracleScanRetried then
    scanned pool tick state
  else
    { state with oracleScanRetried := state.oracleScanRetried.insert pool }

/-- The pool's watch, an empty one before its first scan. -/
def watchOf (pool : String) (state : AuctioneerState) : PriceWatch :=
  state.priceWatches.getD pool
    { deltaBps := task.cadence.priceDeltaBps, staleAfter := PRICE_REFERENCE_STALE_AFTER_SECS }

/-- The reserve whose borrowers a move went against, and on which side. -/
def exposure (snapshot : FullSnapshot) (move : PriceMove) : Option (Nat × Side) :=
  snapshot.assetIndex[move.asset]?.map fun index =>
    (index, match move.direction with
      | .up => .liability
      | .down => .collateral)

/-- `oracle_scan` up to its flags: a snapshot of no borrowers, and the moves it
shows against the pool's watch. The scan is on the books from here on: a flag
that is not written ends the task, and its state with it. -/
def moves (pool : String) (tick : LedgerTick) (state : AuctioneerState) :
    Tasking (Except AuctioneerError (List (Nat × Side)) × AuctioneerState) := do
  let state := { state with priceWatches := state.priceWatches.insert pool (task.watchOf pool state) }
  match ← Proc.call (TaskCall.reading (.snapshot pool [])) with
  | .ok snapshot =>
    let seen := (task.watchOf pool state).moved pool snapshot.prices tick.closeTime
    let state := { state with priceWatches := state.priceWatches.insert pool seen.1 }
    pure (.ok (seen.2.filterMap (exposure snapshot)), scanned pool tick state)
  | .error (.ledgerMoved first second) =>
    pure (.error (.chain (.ledgerMoved first second)), ledgerMoved pool tick state)
  | .error error => pure (.error (.chain error), scanned pool tick state)

/-- How the task carries out a turn's calls. -/
def carryOut (submit : Bool) (state : AuctioneerState) : (o : RecheckCall) → Tasking (o.Answer × AuctioneerState)
  | .write statement => do pure (← Proc.call (TaskCall.write statement), state)
  | .needing pool limit => do pure (← Proc.call (TaskCall.needing pool limit), state)
  | .below pool threshold limit after => do pure (← Proc.call (TaskCall.below pool threshold limit after), state)
  | .decide pool batch tick => do pure (← task.decide pool batch tick, state)
  | .act pool account decision tick => do pure (← task.act submit pool account decision tick, state)
  | .moves pool tick => task.moves pool tick state
  | .stopping => do pure (← Proc.call TaskCall.stopping, state)

/-! ## The loop -/

/-- What is due for a pool at a tick. -/
def turn (pool : String) (tick : LedgerTick) (state : AuctioneerState) (fuel : Nat) : Turn where
  pool
  tick
  limit := task.cadence.refreshBatch
  threshold := task.cadence.scanHealthFactor
  oracleDue :=
    scanDue tick.sequence state.lastOracleScan[pool]? task.cadence.oraclePhase task.cadence.oracleScanLedgers
  fullDue := scanDue tick.sequence state.lastFullScan[pool]? task.cadence.fullPhase task.cadence.fullScanLedgers
  fuel

/-- One pool's share of a tick; `none` where the full scan's pages outran
`fuel`. -/
def poolTick (submit : Bool) (tick : LedgerTick) (fuel : Nat) (pool : String) (state : AuctioneerState) :
    Tasking (Option AuctioneerState) := do
  let turn := task.turn pool tick state fuel
  let (_, state) ← turn.oracle.carried (task.carryOut submit) state
  let (ended, state) ← turn.scan.carried (task.carryOut submit) state
  if ended then do
    let state := if turn.fullDue then { state with lastFullScan := state.lastFullScan.insert pool tick.sequence } else state
    let batch ← Proc.lift (← Proc.call (TaskCall.needing pool turn.limit))
    let (_, state) ← (recheckBatch pool batch tick).carried (task.carryOut submit) state
    pure (some state)
  else
    pure none

/-- Each pool's share, until a shutdown. -/
def poolTicks (submit : Bool) (tick : LedgerTick) (fuel : Nat) : List String → AuctioneerState → Tasking (Option AuctioneerState)
  | [], state => pure (some state)
  | pool :: rest, state => do
    if ← Proc.call TaskCall.stopping then
      pure (some state)
    else
      match ← task.poolTick submit tick fuel pool state with
      | some state => poolTicks submit tick fuel rest state
      | none => pure none

/-- `auctioneer_tick`. The queue is the tick's from the end of the startup delay
on. -/
def auctioneerTick (tick : LedgerTick) (fuel : Nat) (state : AuctioneerState) : Tasking (Option AuctioneerState) :=
  let gate := state.gate.observe tick task.cadence.startupDelayLedgers
  task.poolTicks (gate.unlocked && task.submissionQueue) tick fuel task.pools { state with gate }

/-- `auctioneer_loop` from a state on, as far as `ticks` take it. -/
def loopFrom (fuel : Nat) : Nat → AuctioneerState → Tasking Unit
  | 0, _ => pure ()
  | ticks + 1, state => do
    if ← Proc.call TaskCall.changed then do
      if ← Proc.call TaskCall.stopping then
        pure ()
      else do
        let tick ← Proc.call TaskCall.borrow
        match ← task.auctioneerTick tick fuel state with
        | some state => loopFrom fuel ticks state
        | none => pure ()
    else
      pure ()

/-- `auctioneer_loop`. -/
def auctioneerLoop (ticks fuel : Nat) : Tasking Unit := task.loopFrom fuel ticks {}

end AuctioneerTask

end BlendLiquidator
