/-
The tracker (`tracker.rs`): an event is applied to the auctions table and
names accounts, a refresh re-reads accounts in one snapshot and writes or
deletes their rows, a seed collects a pool's accounts and refreshes them.

One state holds the store, what the loop that drives the tracker carries
between messages (`LoopState`), and a record of what was done. A statement to the store may fail at any moment, its
effect lost or not; every chain read may fail or answer anything.

Metrics, notifications and log lines are left out, and with them the two
counts and the page of borrowers that are read only to be logged.
-/
import Std.Data.ExtTreeSet
import BlendLiquidator.Ledger
import BlendLiquidator.Oracle
import BlendLiquidator.Pool
import BlendLiquidator.Store

namespace BlendLiquidator

open Oracle

abbrev BTreeSet (α : Type) [Ord α] := Std.ExtTreeSet α compare

inductive TrackerError
  | chain (error : ChainError)
  | store (error : StoreError)
  | math (error : MathError)
  deriving Repr, DecidableEq

def TrackerError.isStore : TrackerError → Bool
  | .store _ => true
  | _ => false

/-- What one refresh did. -/
structure RefreshOutcome where
  tracked : Nat := 0
  removed : Nat := 0
  deriving Repr, DecidableEq

/-- What one seed did. -/
structure SeedOutcome where
  refresh : RefreshOutcome := {}
  failedSources : Nat := 0
  stoppedEarly : Bool := false
  deriving Repr, DecidableEq

/-- Whether the seed reached every source and valued every account. -/
def SeedOutcome.isComplete (o : SeedOutcome) : Bool := o.failedSources = 0 && !o.stoppedEarly

/-- What the loop carries between messages, keyed by pool. -/
structure LoopState where
  pending : BTreeMap String (BTreeSet String) := ∅
  unapplied : BTreeSet String := ∅
  needsReseed : BTreeSet String := ∅
  lastScan : BTreeMap String Nat := ∅

/-- What was done, in order. An event and a tick carry the number of the pass
that sent them; a row carries the ledger the row it replaces was computed at,
the ledger of the snapshot it is computed from, and whether it is kept. -/
inductive Did
  | event (pool : String) (pass ledger : Nat) (event : PoolEvent) (applied : Bool)
  | tick (pool : String) (pass : Nat) (tick : LedgerTick) (applied answered : Bool)
  | gap (pool : String)
  | read (pool : String) (accounts : List String) (tick : LedgerTick) (snapshot : PoolSnapshot)
  | row (pool account : String) (old : Option Nat) (ledger : Nat) (kept : Bool)
  | refreshed (pool : String) (accounts : List String)
  | flagged (pool account : String) (ledger : Nat)
  | stopped (pool : String) (failedSources : Nat)
  | seeded (pool : String) (outcome : SeedOutcome)

structure TrackerState where
  store : Store := {}
  loop : LoopState := {}
  published : LedgerTick := ⟨0, 0⟩
  acts : List Did := []

/-- How the world would answer the tracker at one moment. A seed source that
fails answers `none`; a statement that fails may have been executed. -/
structure Reading where
  snapshot : Except ChainError PoolSnapshot := .error (.transport "")
  auction : Except ChainError (Option (Nat × AuctionData)) := .error (.transport "")
  latestLedger : Except RpcError LatestLedger := .error (.transport "")
  source : Option (List String) := none
  store : Except StoreError Unit := .ok ()
  executed : Bool := true
  shutdown : Bool := false

abbrev Tracking (ε α : Type) := Prog Reading TrackerState ε α

/-- Records what was done. -/
def did {ε : Type} (act : Did) : Tracking ε Unit := Prog.modify fun s => { s with acts := s.acts ++ [act] }

/-- What a statement that takes effect makes of the store and the record. -/
def executed {α : Type} (acts : Store → List Did) (run : Store → α × Store) (s : TrackerState) : TrackerState :=
  { s with store := (run s.store).2, acts := s.acts ++ acts s.store }

/-- One statement: its answer, and its effect, which a failure may have had. -/
def recorded {α : Type} (acts : Store → List Did) (run : Store → α × Store) : Tracking TrackerError α := do
  let answer ← Prog.ask fun m => (m.store, m.executed)
  let result ← Prog.read fun s => (run s.store).1
  match answer with
  | (.ok _, _) =>
    Prog.modify (executed acts run)
    pure result
  | (.error error, took) =>
    Prog.modify fun s => if took then executed acts run s else s
    Prog.fail (.store error)

/-- A statement that leaves nothing on the record. -/
def statement {α : Type} (run : Store → α × Store) : Tracking TrackerError α := recorded (fun _ => []) run

/-- A statement that answers nothing. -/
def execute (run : Store → Store) : Tracking TrackerError Unit := statement fun store => ((), run store)

/-- A query whose rows are only counted or logged. -/
def glance : Tracking TrackerError Unit := execute id

namespace Tracker

/-! ## Events -/

/-- The auctions row a chain entry makes, with no fill planned yet. -/
def trackedAuction (pool account : String) (auctionType : AuctionType) (auction : AuctionData) (ledger : Nat) :
    TrackedAuction where
  pool := pool
  account := account
  auctionType := auctionType
  startLedger := auction.block
  fillLedger := none
  percent := none
  bid := auction.bid
  lot := auction.lot
  updatedLedger := ledger

/-- What a partial fill left, read from chain. -/
def applyRemainder (pool user : String) (auctionType : AuctionType) : Tracking TrackerError Unit := do
  let answer ← Prog.ask Reading.auction
  match ← Prog.lift (answer.mapError .chain) with
  | some (ledger, remaining) => execute (·.upsertAuction (trackedAuction pool user auctionType remaining ledger))
  | none => execute (·.deleteAuction pool user auctionType)

/-- An event's auction bookkeeping. -/
def applyAuction (pool : String) (ledger : Nat) : PoolEvent → Tracking TrackerError Unit
  | .newAuction auctionType user _ auction =>
    execute (·.upsertAuction (trackedAuction pool user auctionType auction ledger))
  | .fillAuction auctionType user _ fillPercent _ =>
    if fillPercent ≥ 100 then execute (·.deleteAuction pool user auctionType)
    else applyRemainder pool user auctionType
  | .deleteAuction auctionType user => execute (·.deleteAuction pool user auctionType)
  | _ => pure ()

/-- Applies one event and answers the accounts it names. -/
def apply (pool : String) (ledger : Nat) (event : PoolEvent) : Tracking TrackerError (List String) := do
  applyAuction pool ledger event
  pure event.affectedAccounts

/-! ## Refreshing -/

/-- Whether the snapshot says the account owes something. -/
def owes (snapshot : PoolSnapshot) (account : String) : Bool := match snapshot.positions[account]? with
  | some positions => !positions.liabilities.isEmpty
  | none => false

/-- The health factor a refresh values an account at; `none` for one that owes
nothing. -/
def refreshedHealth (snapshot : PoolSnapshot) (account : String) (valuedAt : Nat) :
    Except TrackerError (Option Int) :=
  if owes snapshot account then do
    match ← (snapshot.positionData account valuedAt).mapError .chain with
    | some data => data.healthFactor.mapError .math
    | none => pure none
  else
    .ok none

/-- One account of a refresh: its row written, or deleted. -/
def refreshAccount (pool : String) (snapshot : PoolSnapshot) (valuedAt : Nat) (outcome : RefreshOutcome)
    (account : String) : Tracking TrackerError RefreshOutcome := do
  let health ← Prog.lift (refreshedHealth snapshot account valuedAt)
  let row := fun (kept : Bool) (store : Store) =>
    [Did.row pool account (store.computedAt pool account) snapshot.ledger kept]
  match snapshot.positions[account]?, health with
  | some positions, some health =>
    let healthFactor ← Prog.lift ((mulFloor health SCALAR_7 snapshot.prices.scalar).mapError .math)
    recorded (row true) fun store => ((), store.upsertUser {
      pool := pool
      account := account
      healthFactor := healthFactor
      collateral := positions.collateral
      liabilities := positions.liabilities
      updatedLedger := snapshot.ledger
      recheckLedger := none })
    pure { outcome with tracked := outcome.tracked + 1 }
  | _, _ =>
    let removed ← recorded (row false) fun store =>
      ((store.user pool account).isSome, store.deleteUser pool account)
    pure (if removed then { outcome with removed := outcome.removed + 1 } else outcome)

/-- Re-reads `accounts` in one snapshot and writes each row. -/
def refresh (pool : String) (accounts : List String) (tick : LedgerTick) :
    Tracking TrackerError RefreshOutcome := do
  if accounts.isEmpty then
    pure {}
  else
    let answer ← Prog.ask Reading.snapshot
    let snapshot ← Prog.lift (answer.mapError .chain)
    did (.read pool accounts tick snapshot)
    let outcome ← accounts.foldlM (refreshAccount pool snapshot (snapshot.valuedAt tick.closeTime)) {}
    did (.refreshed pool accounts)
    pure outcome

/-! ## Seeding -/

/-- What `sources` sources name, and how many of them failed. -/
def collect : Nat → BTreeSet String → Nat → Tracking TrackerError (BTreeSet String × Nat)
  | 0, accounts, failed => pure (accounts, failed)
  | sources + 1, accounts, failed => do
    match ← Prog.ask Reading.source with
    | some found => collect sources (accounts.insertMany found) failed
    | none => collect sources accounts (failed + 1)

/-- The seed's batches, until none is left or shutdown is requested. `left`
counts down with the accounts, each batch taking at least one. -/
def seedBatches (pool : String) (tick : LedgerTick) (batch : Nat) :
    Nat → List String → SeedOutcome → Tracking TrackerError SeedOutcome
  | 0, _, outcome => pure outcome
  | left + 1, accounts, outcome =>
    if accounts.isEmpty then
      pure outcome
    else do
      let stopping ← Prog.ask Reading.shutdown
      if stopping then
        did (.stopped pool outcome.failedSources)
        pure { outcome with stoppedEarly := true }
      else
        let result ← refresh pool (accounts.take batch) tick
        seedBatches pool tick batch left (accounts.drop batch)
          { outcome with refresh := ⟨outcome.refresh.tracked + result.tracked,
              outcome.refresh.removed + result.removed⟩ }

/-- Collects accounts from every source and refreshes them in batches. -/
def seed (pool : String) (sources : Nat) (tick : LedgerTick) (batch : Nat) :
    Tracking TrackerError SeedOutcome := do
  let (accounts, failedSources) ← collect sources ∅ 0
  let accounts := accounts.toList
  let outcome ← seedBatches pool tick (max batch 1) accounts.length accounts { failedSources }
  did (.seeded pool outcome)
  pure outcome

end Tracker

end BlendLiquidator
