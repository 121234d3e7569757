/-
The filler (`filler.rs`, `service.rs`'s `filler_loop`): once a tick, each
pool's open auctions are re-read from the chain, planned and filled, and each
pool a fill landed in is then unwound, pass by pass, until there is nothing
left to move.

Its world is the RPC its reads are made with, the store's statements, the
executor's own world, the shutdown flag, the clock and the watch its ticks come
from. Its state is what one run remembers between ticks, the wallet, and a
record of what was done: the shutdown flag each time it was looked at, each
read, each draft and plan and what the executor made of it.

Metrics, log lines and the notifications nothing is read back from are left
out, and with them the set of skips already counted.
-/
import Mathlib.Data.Prod.Lex
import Mathlib.Data.String.Basic
import BlendLiquidator.AuctionTable
import BlendLiquidator.Executor
import BlendLiquidator.Notifier
import BlendLiquidator.PoolReader

namespace BlendLiquidator

open Oracle Calls

/-! ## Configuration -/

/-- A margin for the auctions whose assets its lists cover. -/
structure ProfitRule where
  supportedBid : List String
  supportedLot : List String
  profitBps : Nat

/-- One followed pool (`config.rs`). -/
structure PoolConfig where
  address : String
  primaryAsset : String
  minPrimaryCollateral : Int
  minHealthFactor : Int
  defaultProfitBps : Nat
  forceFill : Bool
  fillObjective : FillObjective
  supportedBid : List String
  supportedLot : List String
  profits : List ProfitRule

/-- Whether `list` names every one of `assets`, `*` naming them all. -/
def covers (list assets : List String) : Bool := "*" ∈ list || assets.all fun asset => asset ∈ list

/-- Whether the filler takes this auction at all. -/
def PoolConfig.supports (pool : PoolConfig) (bid lot : List String) : Bool :=
  covers pool.supportedBid bid && covers pool.supportedLot lot

/-- The margin a fill waits for, in basis points. -/
def PoolConfig.profitBps (pool : PoolConfig) (bid lot : List String) : Nat :=
  match pool.profits.find? fun rule => covers rule.supportedBid bid && covers rule.supportedLot lot with
  | some rule => rule.profitBps
  | none => pool.defaultProfitBps

structure FillerConfig where
  dryRun : Bool
  ownAddresses : List String
  hfSafetyMultiplier : Int
  planIterations : Nat
  replanLedgers : Nat
  replanNearLedgers : Nat
  highFeeProfitThreshold : Int
  inventoryRefresh : Nat
  nativeAsset : String

/-- The whole of the auction. -/
def WHOLE_AUCTION : Nat := 100

def UNWIND_BACKOFF_MAX_LEDGERS : Nat := 64

/-- The health factor the filler keeps itself at or above after a fill. -/
def healthFloor (minHealthFactor multiplier : Int) : Except MathError Int :=
  mulCeil minHealthFactor multiplier SCALAR_7

/-- A 7-decimal configuration value in the oracle's own units. -/
def toOracleUnits (value oracleScalar : Int) : Except MathError Int := mulFloor value oracleScalar SCALAR_7

/-- Every auction open in a pool, oldest first. -/
def Store.openAuctions (store : Store) (pool : String) : List TrackedAuction :=
  let key (row : TrackedAuction) := toLex (row.startLedger, toLex (row.account, row.auctionType.code))
  (store.auctions.rows.filter fun row => row.pool = pool).insertionSort fun a b => key a ≤ key b

/-! ## What one run remembers -/

/-- One version of an auction a dry run has recorded a fill for. -/
structure RecordedFill where
  pool : String
  account : String
  startLedger : Nat
  bid : BTreeMap String Int
  lot : BTreeMap String Int
  deriving DecidableEq

/-- The version the store's row describes. -/
def RecordedFill.ofRow (row : TrackedAuction) : RecordedFill :=
  ⟨row.pool, row.account, row.startLedger, row.bid, row.lot⟩

/-- The version the chain holds. -/
def RecordedFill.ofEntry (row : TrackedAuction) (auction : AuctionData) : RecordedFill :=
  ⟨row.pool, row.account, auction.block, auction.bid, auction.lot⟩

/-- One pool's open run of unwind passes that moved nothing. -/
structure Setback where
  count : Nat := 0
  retryAt : Nat := 0

structure FillerState where
  lastPlanned : BTreeMap (String ×ₗ String) Nat := ∅
  recordedDryRun : List RecordedFill := []
  inventoryStale : Bool := false
  knownAssets : BTreeSet String := ∅
  coveredAssets : BTreeSet String := ∅
  unwindPending : BTreeSet String := ∅
  unwindSeeded : Bool := false
  leftoversNotified : BTreeSet String := ∅
  unwindSetbacks : BTreeMap String Setback := ∅
  /-- The least ledger a later snapshot of the pool must reach, `none` where it
  is not known. -/
  unwindAfter : BTreeMap String (Option Nat) := ∅

namespace FillerState

variable (s : FillerState)

/-- Forgets when this auction was planned. -/
def forget (pool account : String) : FillerState :=
  { s with lastPlanned := s.lastPlanned.erase (toLex (pool, account)) }

/-- Forgets an auction that is no longer there. -/
def closed (pool account : String) : FillerState :=
  let s := s.forget pool account
  { s with recordedDryRun := s.recordedDryRun.filter fun fill => fill.pool ≠ pool || fill.account ≠ account }

/-- Drops every version of the pool's that its open rows no longer name. -/
def pruneRecorded (pool : String) (rows : List TrackedAuction) : FillerState :=
  let starts (account : String) := rows.reverse.find? fun row =>
    row.auctionType = .userLiquidation ∧ row.account = account
  let kept (fill : RecordedFill) := fill.pool ≠ pool || match starts fill.account with
    | some row => decide (row.startLedger ≤ fill.startLedger)
    | none => false
  { s with recordedDryRun := s.recordedDryRun.filter kept }

/-- Ends a pool's run of setbacks. -/
def clearSetback (pool : String) : FillerState := { s with unwindSetbacks := s.unwindSetbacks.erase pool }

end FillerState

/-- The startup delay's gate, measured in ledgers from the first tick seen. -/
structure StartupGate where
  firstTickLedger : Option Nat := none
  unlocked : Bool := false

def StartupGate.observe (gate : StartupGate) (tick : LedgerTick) (delayLedgers : Nat) : StartupGate :=
  let firstLedger := gate.firstTickLedger.getD tick.sequence
  { firstTickLedger := some firstLedger
    unlocked := gate.unlocked || decide (delayLedgers ≤ tick.sequence - firstLedger) }

/-- What one tick did, across every pool. -/
structure TickSummary where
  planned : Nat := 0
  executed : Nat := 0
  skipped : Nat := 0
  closed : Nat := 0
  unwound : Nat := 0
  deriving Repr, DecidableEq

/-! ## What a run does -/

inductive FillerError
  | store (error : StoreError)
  deriving Repr, DecidableEq

/-- Why a pool stopped being pending. -/
inductive ClearedBy
  | noPosition
  | idle (plan : UnwindPlan)
  | planned

/-- What a snapshot is read for. -/
inductive ReadFor
  | walk
  | unwind
  deriving DecidableEq

/-- What the filler did, in order. A fill carries the auction its draft is of. -/
inductive FillerAct
  | stop (requested : Bool)
  | seeded (pools : List String)
  | opened (pool : String) (rows : List TrackedAuction)
  | entry (pool account : String) (answer : Except ChainError (Option (Nat × AuctionData)))
  | snapshot (purpose : ReadFor) (pool : String) (attempts : List (List Read)) (snapshot : FullSnapshot)
  | balance (asset : String) (answer : Except ChainError (Nat × Int))
  | fill (pool : PoolConfig) (auction : AuctionData) (plan : FillPlan) (done : List ExecAct)
      (answer : Except ExecutorError ExecOutcome)
  | planned (pool : String) (snapshot : FullSnapshot) (balances : BTreeMap String Int)
      (answer : Except MathError UnwindPlan)
  | unwind (pool : String) (plan : UnwindPlan) (done : List ExecAct) (answer : Except ExecutorError UnwindOutcome)
  | cleared (pool : String) (why : ClearedBy)
  | dropped
  | leftovers (pool message : String) (delivery : Delivery)

structure FillerSystem where
  state : FillerState := {}
  inventory : Inventory.Ledger
  gate : StartupGate := {}
  summary : TickSummary := {}
  acts : List FillerAct := []

/-- How the world would answer the filler at one moment. The store is what a
query would find in it. -/
structure FillerMoment where
  reader : ReaderMoment
  exec : ExecMoment
  openAuctions : Except StoreError Store
  setFillPlan : Except StoreError Bool
  statement : Except StoreError Unit
  notify : Delivery
  shutdown : Bool
  now : Nat
  /-- The watch's next tick, `none` once its sender is gone. -/
  tick : Option LedgerTick

abbrev Filling (α : Type) := Prog FillerMoment FillerSystem FillerError α

structure Filler where
  pools : List PoolConfig
  config : FillerConfig
  executor : Executor
  startupDelayLedgers : Nat

/-- Everything one pool's auctions are planned against, read once. -/
structure PoolPass where
  pool : PoolConfig
  earliestLedger : Nat
  snapshot : FullSnapshot
  reserves : BTreeMap Nat Reserve
  filler : Positions
  supplyAllowed : Bool
  healthFloor : Int

namespace Filler

/-- Records what was done. -/
def did {ε : Type} (act : FillerAct) : Prog FillerMoment FillerSystem ε Unit :=
  Prog.modify fun s => { s with acts := s.acts ++ [act] }

def update (g : FillerState → FillerState) : Filling Unit := Prog.modify fun s => { s with state := g s.state }

def count (g : TickSummary → TickSummary) : Filling Unit := Prog.modify fun s => { s with summary := g s.summary }

def skipped : Filling Unit := count fun summary => { summary with skipped := summary.skipped + 1 }

/-- `*shutdown.borrow()`. -/
def stopping : Filling Bool := do
  let requested ← Prog.ask FillerMoment.shutdown
  did (.stop requested)
  pure requested

/-- One statement to the store. -/
def statement {α : Type} (method : FillerMoment → Except StoreError α) : Filling α := do
  let answer ← Prog.ask method
  Prog.lift (answer.mapError .store)

/-- A pool's snapshot for `users`, on the record where there is one. -/
def readSnapshot (purpose : ReadFor) (pool : String) (users : List String) : Filling (Option FullSnapshot) := do
  let (answer, attempts) ← Prog.inside FillerMoment.reader (fun _ => []) (PoolReader.snapshot pool users)
  match answer with
  | .ok snapshot => do
    did (.snapshot purpose pool attempts snapshot)
    pure (some snapshot)
  | .error _ => pure none

/-! ## Step 1: the rows worth a chain read -/

/-- Whether `row` is planned this tick. -/
def due (row : TrackedAuction) (plannedAt : Option Nat) (tick : LedgerTick) (config : FillerConfig) : Bool :=
  match row.fillLedger, plannedAt with
  | some fillLedger, some plannedAt =>
    decide (fillLedger - tick.sequence ≤ config.replanNearLedgers) ||
      decide (config.replanLedgers ≤ tick.sequence - plannedAt)
  | _, _ => true

variable (f : Filler)

/-- Whether this row is worth a chain read at all. -/
def considered (pool : PoolConfig) (tick : LedgerTick) (state : FillerState) (row : TrackedAuction) : Bool :=
  if row.auctionType ≠ .userLiquidation then
    false
  else if row.account = pool.address ∨ row.account ∈ f.config.ownAddresses then
    false
  else if ¬pool.supports row.bid.keys row.lot.keys then
    false
  else if RecordedFill.ofRow row ∈ state.recordedDryRun then
    false
  else
    due row state.lastPlanned[toLex (row.pool, row.account)]? tick f.config

/-! ## Step 2: the chain's entries -/

/-- The calls of `readEntry`, as the filler makes them. -/
def auctionCall : (o : AuctionCall) → Prog FillerMoment FillerSystem StoreError o.Answer
  | .auction pool account auctionType => do
    let (answer, _) ← Prog.inside FillerMoment.reader (fun _ => []) (PoolReader.auction pool account auctionType)
    did (.entry pool account answer)
    pure answer
  | .upsert _ | .delete _ _ _ => Prog.ask FillerMoment.statement

/-- The chain's own entry for each kept row. A row the chain no longer holds an
auction for is closed. -/
def readEntries : List TrackedAuction → Filling (List (TrackedAuction × AuctionData))
  | [] => pure []
  | row :: rest => do
    if ← stopping then
      pure []
    else do
      let answer ← Prog.caught ((readEntry row).runWith auctionCall)
      match ← Prog.lift (answer.mapError .store) with
      | .live row auction => do
        let live ← readEntries rest
        pure ((row, auction) :: live)
      | .closed row => do
        update (·.closed row.pool row.account)
        count fun summary => { summary with closed := summary.closed + 1 }
        readEntries rest
      | .unread => readEntries rest

/-! ## Step 3: the snapshot and the wallet -/

/-- `read_balances`: one call for each asset, the first failure the whole
read's. -/
def readBalances (account : String) (balances : BTreeMap String Int) :
    List String → Filling (Except ChainError (BTreeMap String Int))
  | [] => pure (.ok balances)
  | asset :: rest => do
    let (answer, _) ← Prog.inside FillerMoment.reader (fun _ => []) (PoolReader.balance asset account)
    did (.balance asset answer)
    match answer with
    | .ok (_, amount) => readBalances account (balances.insert asset amount) rest
    | .error error => pure (.error error)

/-- The assets a wallet read has to cover once this snapshot is known. -/
def known (snapshot : FullSnapshot) (state : FillerState) : BTreeSet String :=
  (state.knownAssets.insertMany snapshot.assetIndex.keys).insert f.config.nativeAsset

/-- Whether the balances may be planned against as they stand. -/
def walletFresh (snapshot : FullSnapshot) (now : Nat) (s : FillerSystem) : Bool :=
  !s.state.inventoryStale && (snapshot.assetIndex.keys.all fun asset => asset ∈ s.state.coveredAssets) &&
    !Inventory.stale s.inventory now f.config.inventoryRefresh

/-- The balances of a read that succeeded, in place of the last ones. -/
def recordWallet (assets : BTreeSet String) (balances : BTreeMap String Int) (now : Nat) (s : FillerSystem) :
    FillerSystem :=
  { s with
    inventory := Inventory.recordBalances s.inventory balances now
    state := { s.state with inventoryStale := false, coveredAssets := assets } }

/-- The filler's wallet, when it has one and its balances are stale. A read that
fails keeps the previous balances. -/
def refreshInventory (snapshot : FullSnapshot) : Filling Unit :=
  match f.executor.filler with
  | none => pure ()
  | some filler => do
    update fun state => { state with knownAssets := f.known snapshot state }
    let now ← Prog.ask FillerMoment.now
    if ← Prog.read (f.walletFresh snapshot now) then
      pure ()
    else do
      let assets ← Prog.read (·.state.knownAssets)
      match ← readBalances filler ∅ assets.toList with
      | .ok balances => do
        let now ← Prog.ask FillerMoment.now
        Prog.modify (recordWallet assets balances now)
      | .error _ => pure ()

/-- Everything this pool's auctions are planned against, or `none` when it
cannot be planned at all this tick. -/
def poolContext (pool : PoolConfig) (snapshot : FullSnapshot) (tick : LedgerTick) : Option PoolPass := do
  let index ← snapshot.assetIndex[pool.primaryAsset]?
  let earliestLedger ← (addU32 tick.sequence 1).toOption
  let floor ← (healthFloor pool.minHealthFactor f.config.hfSafetyMultiplier).toOption
  let reserves ← (snapshot.accruedReserves (snapshot.valuedAt tick.closeTime)).toOption
  let enabled := match snapshot.reserves[index]? with
    | some reserve => reserve.config.enabled
    | none => false
  pure
    { pool, earliestLedger, snapshot, reserves
      filler := (f.executor.filler.bind (snapshot.positions[·]?)).getD {}
      supplyAllowed := decide (snapshot.poolInstance.config.status.code ≤ PoolStatus.onIce.code) && enabled
      healthFloor := floor }

/-! ## Step 4: plans -/

/-- What this pool holds one fill of `auction` to. -/
def terms (context : PoolPass) (auction : AuctionData) : FillTerms where
  minCollateral := context.snapshot.poolInstance.config.minCollateral
  maxPositions := context.snapshot.poolInstance.config.maxPositions
  supplyAllowed := context.supplyAllowed
  primaryAsset := context.pool.primaryAsset
  healthFloor := context.healthFloor
  profitBps := context.pool.profitBps auction.bid.keys auction.lot.keys
  forceFill := context.pool.forceFill
  objective := context.pool.fillObjective
  planIterations := f.config.planIterations

/-- What a plan of `account`'s auction is made of, beside the wallet. -/
def inputs (context : PoolPass) (account : String) (auction : AuctionData) (maxPercent : FillPercent)
    (wallet : BTreeMap String Int) : FillInputs where
  reserves := context.reserves
  assetIndex := context.snapshot.assetIndex
  prices := context.snapshot.prices
  filler := context.filler
  borrower := context.snapshot.positions.getD account {}
  wallet := wallet
  auction := auction
  earliestLedger := context.earliestLedger
  maxPercent := maxPercent

/-- One plan against this pool's snapshot and the wallet as it stands now. -/
def plan (context : PoolPass) (account : String) (auction : AuctionData) (maxPercent : FillPercent)
    (inventory : Inventory.Ledger) : Except MathError PlannedFill :=
  planFill (f.terms context auction) (inputs context account auction maxPercent (Inventory.available inventory))

/-- Clears the plan off a row. -/
def clearPlan : Filling Unit := do
  let _ ← statement FillerMoment.setFillPlan
  pure ()

/-- One planning attempt: the draft, or `none` with the row's plan cleared. -/
def drafted (context : PoolPass) (row : TrackedAuction) (auction : AuctionData) (maxPercent : FillPercent) :
    Filling (Option FillDraft) := do
  match ← Prog.read fun s => f.plan context row.account auction maxPercent s.inventory with
  | .ok (.fill draft) => pure (some draft)
  | .ok (.skip _) => do
    clearPlan
    skipped
    pure none
  | .error _ => pure none

/-- Writes a draft onto its row. `false` when the row has gone. -/
def writePlan (tick : LedgerTick) (row : TrackedAuction) : Filling Bool := do
  if ← statement FillerMoment.setFillPlan then do
    update fun state =>
      { state with lastPlanned := state.lastPlanned.insert (toLex (row.pool, row.account)) tick.sequence }
    count fun summary => { summary with planned := summary.planned + 1 }
    pure true
  else
    pure false

/-! ## Step 5: execution -/

/-- The fee tier: high for a fill worth paying to land first. -/
def priority (context : PoolPass) (draft : FillDraft) : Except MathError Priority := do
  let threshold ← toOracleUnits f.config.highFeeProfitThreshold context.snapshot.prices.scalar
  pure (if draft.estProfit ≥ threshold then .high else .normal)

/-- The settlement this mode demands, `none` when the wallet cannot fund it. -/
def settlementFor (spend : BTreeMap String Int) : Filling (Option Settlement) :=
  if f.config.dryRun then
    pure (some .dryRun)
  else do
    let (answer, ledger) ← Prog.read fun s => Inventory.reserve s.inventory spend
    Prog.modify fun s => { s with inventory := ledger }
    match answer with
    | .ok reservation => pure (some (.live reservation))
    | .error _ => pure none

/-- A call of the executor, on the record as `act` has it. -/
def executing {α : Type} (call : Exec Empty (Except ExecutorError α))
    (act : List ExecAct → Except ExecutorError α → FillerAct) : Filling (Except ExecutorError α) := do
  match ← Prog.inside FillerMoment.exec (fun s => { ledger := s.inventory }) call with
  | (.ok answer, part) => do
    Prog.modify fun s => { s with inventory := part.ledger, acts := s.acts ++ [act part.acts answer] }
    pure answer
  | (.error error, _) => error.elim

/-- Hands one draft to the executor with the settlement its mode demands. -/
def executeOnce (context : PoolPass) (row : TrackedAuction) (auction : AuctionData) (draft : FillDraft)
    (armed : Bool) : Filling (Option ExecOutcome) := do
  match f.priority context draft with
  | .error _ => do
    skipped
    pure none
  | .ok priority => do
    match ← f.settlementFor draft.spend with
    | none => do
      skipped
      pure none
    | some settlement => do
      let plan : FillPlan := { pool := row.pool, user := row.account, draft, priority }
      match ← executing (f.executor.execute plan settlement armed) (.fill context.pool auction plan) with
      | .ok outcome => pure (some outcome)
      | .error (.store error) => Prog.fail (.store error)
      | .error _ => pure none

/-- The ledger an outcome landed in, `none` where it may yet: what a later pass
has to wait for. -/
def landedAt : TxOutcome → Option (Option Nat)
  | .succeeded _ ledger _ => some (some ledger)
  | .unknown _ _ _ => some none
  | .failed _ _ _ _ | .expired _ _ _ => none

/-- What a fill that landed, or may have, leaves behind. -/
def noteFill (pool : String) (landed : Option Nat) (state : FillerState) : FillerState :=
  let state := { state with
    inventoryStale := true
    unwindPending := state.unwindPending.insert pool
    unwindAfter := state.unwindAfter.insert pool landed }
  state.clearSetback pool

/-- What a recorded fill leaves behind; whether it landed, or may have. -/
def noteRecorded (row : TrackedAuction) (auction : AuctionData) (recorded : FillRecorded) : Filling Bool := do
  count fun summary => { summary with executed := summary.executed + 1 }
  update fun state => if recorded.dryRun then
      { state with recordedDryRun := RecordedFill.ofEntry row auction :: state.recordedDryRun }
    else
      state
  match recorded.submission.bind landedAt with
  | some landed => do
    update (noteFill row.pool landed)
    pure true
  | none => pure false

/-- A plan the chain has moved past. -/
def noteStale (row : TrackedAuction) : Filling Bool := do
  clearPlan
  update (·.forget row.pool row.account)
  skipped
  pure false

/-- The one re-plan, at half the refused percent. -/
def replan (tick : LedgerTick) (context : PoolPass) (row : TrackedAuction) (auction : AuctionData)
    (refused : FillDraft) (armed : Bool) : Filling Bool := do
  match FillPercent.tryFrom (max (refused.percent.get / 2) 1) with
  | none => do
    skipped
    pure false
  | some half => do
    match ← f.drafted context row auction half with
    | none => pure false
    | some draft => do
      if !(← writePlan tick row) then
        pure false
      else if draft.fillLedger > context.earliestLedger then
        pure false
      else do
        match ← f.executeOnce context row auction draft armed with
        | none => pure false
        | some (.recorded recorded) => noteRecorded row auction recorded
        | some .stale => noteStale row
        | some (.replan _) | some (.refused _) => do
          skipped
          pure false

/-- One execution and what its answer means. -/
def executeDraft (tick : LedgerTick) (context : PoolPass) (row : TrackedAuction) (auction : AuctionData)
    (draft : FillDraft) (armed : Bool) : Filling Bool := do
  match ← f.executeOnce context row auction draft armed with
  | none => pure false
  | some (.recorded recorded) => noteRecorded row auction recorded
  | some (.replan _) => f.replan tick context row auction draft armed
  | some (.refused _) => do
    skipped
    pure false
  | some .stale => noteStale row

/-- Steps 4 and 5 for one auction. `true` when a submission landed or may have,
which ends this pool's walk. -/
def planAndAct (tick : LedgerTick) (context : PoolPass) (row : TrackedAuction) (auction : AuctionData)
    (execute armed : Bool) : Filling Bool := do
  match FillPercent.tryFrom WHOLE_AUCTION with
  | none => pure false
  | some whole => do
    match ← f.drafted context row auction whole with
    | none => pure false
    | some draft => do
      if !(← writePlan tick row) then
        pure false
      else if !execute || draft.fillLedger > context.earliestLedger then
        pure false
      else
        f.executeDraft tick context row auction draft armed

/-! ## One pool's walk -/

/-- The live auctions, one after another. -/
def walk (tick : LedgerTick) (context : PoolPass) (execute armed : Bool) :
    List (TrackedAuction × AuctionData) → Filling Unit
  | [] => pure ()
  | (row, auction) :: rest => do
    if ← stopping then
      pure ()
    else if ← Prog.read fun s => decide (RecordedFill.ofEntry row auction ∈ s.state.recordedDryRun) then
      walk tick context execute armed rest
    else if ← f.planAndAct tick context row auction execute armed then
      pure ()
    else
      walk tick context execute armed rest

/-- The accounts of a pool's snapshot, sorted and each once. -/
def accounts (live : List (TrackedAuction × AuctionData)) : List String :=
  (Std.ExtTreeSet.ofList (f.executor.filler.toList ++ live.map (·.1.account)) compare).toList

/-- One pool's steps 1 to 5. -/
def tickPool (tick : LedgerTick) (execute armed : Bool) (pool : PoolConfig) : Filling Unit := do
  let rows := (← statement FillerMoment.openAuctions).openAuctions pool.address
  did (.opened pool.address rows)
  update (·.pruneRecorded pool.address rows)
  let candidates ← Prog.read fun s => rows.filter (f.considered pool tick s.state)
  if candidates.isEmpty then
    pure ()
  else do
    let live ← readEntries candidates
    if live.isEmpty then
      pure ()
    else if ← stopping then
      pure ()
    else do
      match ← readSnapshot .walk pool.address (f.accounts live) with
      | none => pure ()
      | some snapshot => do
        f.refreshInventory snapshot
        match f.poolContext pool snapshot tick with
        | none => pure ()
        | some context => f.walk tick context execute armed live

/-! ## The unwind passes -/

/-- Whether an unwind could move nothing at all here. -/
def nothingToUnwind (positions : Positions) : Bool := positions.collateral.isEmpty && positions.liabilities.isEmpty

/-- Whether a snapshot holds the submission its pool's pass is owed. -/
def holdsIt (landed : Option (Option Nat)) (ledger : Nat) : Bool :=
  match landed with
  | none => true
  | some none => false
  | some (some landed) => decide (landed ≤ ledger)

/-- The pool is pending no more. -/
def clear (pool : String) (why : ClearedBy) (s : FillerSystem) : FillerSystem :=
  let state := { s.state with unwindPending := s.state.unwindPending.erase pool }
  { s with state := state.clearSetback pool, acts := s.acts ++ [.cleared pool why] }

/-- The filler holds no position here: nothing is left for a later snapshot to
hold. -/
def noteEmpty (pool : String) (s : FillerSystem) : FillerSystem :=
  let s := clear pool .noPosition s
  { s with state := { s.state with
      leftoversNotified := s.state.leftoversNotified.erase pool
      unwindAfter := s.state.unwindAfter.erase pool } }

/-- An idle pass: the pool is unwound as far as it can be. Debt left over is
reported once. -/
def noteIdle (pool : String) (plan : UnwindPlan) : Filling Unit := do
  Prog.modify (clear pool (.idle plan))
  if plan.remainingLiabilities.isEmpty then
    update fun state => { state with leftoversNotified := state.leftoversNotified.erase pool }
  else if ← Prog.read fun s => decide (pool ∈ s.state.leftoversNotified) then
    pure ()
  else do
    update fun state => { state with leftoversNotified := state.leftoversNotified.insert pool }
    let delivery ← Prog.ask FillerMoment.notify
    let assets := ", ".intercalate plan.remainingLiabilities
    did (.leftovers pool ("debt the wallet cannot repay remains in " ++ pool ++ ": " ++ assets) delivery)
    update fun state => if delivery = .dropped then
        { state with leftoversNotified := state.leftoversNotified.erase pool }
      else
        state

/-- One pass that left the position exactly as it was: the next is held off
twice as long. -/
def noteSetback (tick : LedgerTick) (pool : String) : Filling Unit :=
  update fun state =>
    let count := min ((state.unwindSetbacks.getD pool {}).count + 1) u32Max
    let backoff := min (min (2 ^ count) u32Max) UNWIND_BACKOFF_MAX_LEDGERS
    { state with unwindSetbacks :=
        state.unwindSetbacks.insert pool { count, retryAt := min (tick.sequence + backoff) u32Max } }

/-- What a pass that landed, or may have, leaves behind. -/
def noteLanded (pool : String) (landed : Option Nat) (state : FillerState) : FillerState :=
  let state := { state with
    inventoryStale := true
    unwindAfter := state.unwindAfter.insert pool landed }
  state.clearSetback pool

def unwound : Filling Unit := count fun summary => { summary with unwound := summary.unwound + 1 }

/-- What one outcome means for the pending set and the pool's setbacks. -/
def noteUnwound (tick : LedgerTick) (pool : String) : UnwindOutcome → Filling Unit
  | .planned _ =>
    if f.config.dryRun then do
      Prog.modify (clear pool .planned)
      unwound
    else
      update (·.clearSetback pool)
  | .submitted outcome =>
    match landedAt outcome with
    | some landed => do
      update (noteLanded pool landed)
      unwound
    | none => noteSetback tick pool
  | .refused _ | .stale => noteSetback tick pool

/-- The settlement, one call to the executor, and what its answer means. -/
def executeUnwind (tick : LedgerTick) (pool : String) (plan : UnwindPlan) (armed : Bool) : Filling Unit := do
  match ← f.settlementFor plan.spend with
  | none => skipped
  | some settlement => do
    match ← executing (f.executor.unwind pool plan settlement armed) (.unwind pool plan) with
    | .ok outcome => f.noteUnwound tick pool outcome
    | .error (.store error) => Prog.fail (.store error)
    | .error _ => noteSetback tick pool

/-- What the operator and the pool hold this pool's unwind to. -/
def unwindTerms (pool : PoolConfig) (snapshot : FullSnapshot) : UnwindTerms where
  primaryAsset := pool.primaryAsset
  minPrimaryCollateral := pool.minPrimaryCollateral
  minHealthFactor := pool.minHealthFactor
  minCollateral := snapshot.poolInstance.config.minCollateral

/-- The plan of a pass, from its snapshot and the wallet as it stands. -/
def unwindPlan (pool : PoolConfig) (snapshot : FullSnapshot) (positions : Positions)
    (reserves : BTreeMap Nat Reserve) (inventory : Inventory.Ledger) : Except MathError UnwindPlan :=
  planUnwind (unwindTerms pool snapshot)
    { reserves, assetIndex := snapshot.assetIndex, prices := snapshot.prices, positions
      wallet := Inventory.available inventory }

/-- One pool's pass: its own snapshot, the filler's wallet, the plan, and what
the plan's answer means for the pending set. -/
def unwindPool (tick : LedgerTick) (execute armed : Bool) (filler : String) (pool : PoolConfig) : Filling Unit := do
  match ← readSnapshot .unwind pool.address [filler] with
  | none => pure ()
  | some snapshot => do
    let landed ← Prog.read (·.state.unwindAfter[pool.address]?)
    if !holdsIt landed snapshot.ledger then
      pure ()
    else do
      let positions := snapshot.positions.getD filler {}
      if nothingToUnwind positions then
        Prog.modify (noteEmpty pool.address)
      else do
        f.refreshInventory snapshot
        match snapshot.accruedReserves (snapshot.valuedAt tick.closeTime) with
        | .error _ => pure ()
        | .ok reserves => do
          let inventory ← Prog.read (·.inventory)
          let answer := unwindPlan pool snapshot positions reserves inventory
          did (.planned pool.address snapshot inventory.balances answer)
          match answer with
          | .error _ => pure ()
          | .ok plan =>
            if plan.isIdle then
              noteIdle pool.address plan
            else if !execute then
              pure ()
            else
              f.executeUnwind tick pool.address plan armed

/-- Whether this pool's pass is made this tick: it is pending, and not backing
off. -/
def passes (tick : LedgerTick) (pool : String) (state : FillerState) : Bool :=
  decide (pool ∈ state.unwindPending) && match state.unwindSetbacks[pool]? with
    | some setback => decide (setback.retryAt ≤ tick.sequence)
    | none => true

/-- Every pending pool's pass, in configured order. -/
def unwindWalk (tick : LedgerTick) (execute armed : Bool) (filler : String) : List PoolConfig → Filling Unit
  | [] => pure ()
  | pool :: rest => do
    if ← stopping then
      pure ()
    else do
      if ← Prog.read fun s => passes tick pool.address s.state then
        f.unwindPool tick execute armed filler pool
        unwindWalk tick execute armed filler rest
      else
        unwindWalk tick execute armed filler rest

/-- With no filler key there is nothing to unwind at all: the pending set is
dropped. -/
def dropPending (s : FillerSystem) : FillerSystem :=
  if s.state.unwindPending.isEmpty then
    s
  else
    { s with state := { s.state with unwindPending := ∅, unwindAfter := ∅ }, acts := s.acts ++ [.dropped] }

/-- The tick's last step. -/
def unwindPasses (tick : LedgerTick) (execute armed : Bool) : Filling Unit :=
  match f.executor.filler with
  | none => Prog.modify dropPending
  | some filler => f.unwindWalk tick execute armed filler f.pools

/-! ## The loop -/

/-- The startup seed: every configured pool, once a run. -/
def seed (s : FillerSystem) : FillerSystem :=
  if s.state.unwindSeeded then
    s
  else
    let addresses := f.pools.map (·.address)
    { s with
      state := { s.state with unwindSeeded := true, unwindPending := s.state.unwindPending.insertMany addresses }
      acts := s.acts ++ [.seeded addresses] }

/-- Every pool's walk, until a shutdown. -/
def tickPools (tick : LedgerTick) (execute armed : Bool) : List PoolConfig → Filling Unit
  | [] => pure ()
  | pool :: rest => do
    if ← stopping then
      pure ()
    else do
      f.tickPool tick execute armed pool
      tickPools tick execute armed rest

/-- One tick. -/
def tick (tick : LedgerTick) (execute armed : Bool) : Filling TickSummary := do
  Prog.modify f.seed
  count fun _ => {}
  f.tickPools tick execute armed f.pools
  f.unwindPasses tick execute armed
  Prog.read (·.summary)

/-- One turn of the loop: it ends with the watch, or at a shutdown. -/
def turn (armed : Bool) : Filling (Option Unit) := do
  match ← Prog.ask FillerMoment.tick with
  | none => pure (some ())
  | some ledger => do
    if ← stopping then
      pure (some ())
    else do
      Prog.modify fun s => { s with gate := s.gate.observe ledger f.startupDelayLedgers }
      let execute ← Prog.read (·.gate.unlocked)
      let _ ← f.tick ledger execute armed
      pure none

/-- `filler_loop`, as far as `fuel` turns take it. -/
def fillerLoop (armed : Bool) (fuel : Nat) : Filling Unit := Prog.repeatUntil (f.turn armed) fuel

/-- A run starts with nothing remembered and an empty wallet. -/
def start (feeReserve : UInt64) : FillerSystem := { inventory := Inventory.new f.config.nativeAsset feeReserve }

/-- Where a run stands after `fuel` turns. -/
def run (armed : Bool) (feeReserve : UInt64) (env : Nat → FillerMoment) (fuel : Nat) :
    Res FillerError Unit × FillerSystem :=
  let ran := f.fillerLoop armed fuel env 0 (f.start feeReserve)
  (ran.1, ran.2.2)

end Filler

end BlendLiquidator
