/-
The tracker loop and the pollers that feed it (`service.rs`): `handle_message`,
`apply_tick` and `full_scan`, and the system they run in.

Pollers of any number of pools share one channel with one tracker loop. A
poller moves by one call at a time, and its pass may be dropped at any of
them; the loop takes the channel's first message and handles it. Handling one
message is one step: a poller sees nothing of it but the answer to its tick,
and neither reads nor writes what the tracker works on, so its own steps in
the meantime might as well come before or after.
-/
import BlendLiquidator.Tracker

namespace BlendLiquidator

open Calls Oracle

/-- Timings and sizes of the loop. -/
structure Cadence where
  userRefreshLedgers : Nat
  refreshBatch : Nat
  fullScanLedgers : Nat
  phase : Nat
  deriving Repr, DecidableEq

/-- What a run is configured with: the loop's cadence, how many seed sources
there are, and the pollers' page size. -/
structure Service where
  cadence : Cadence
  seedSources : Nat
  pageLimit : Nat
  deriving Repr, DecidableEq

/-- Whether the full scan fires: `ledger` has entered a new phased period
since `last`. The phase is added in `u32`, wrapping. -/
def scanDue (ledger : Nat) (last : Option Nat) (phase period : Nat) : Bool :=
  if period = 0 then
    false
  else
    match last with
    | none => true
    | some last => decide ((ledger + phase) % 2 ^ 32 / period > (last + phase) % 2 ^ 32 / period)

/-- A change to what the loop carries. -/
def setLoop {ε : Type} (change : LoopState → LoopState) : Tracking ε Unit :=
  Prog.modify fun s => { s with loop := change s.loop }

/-- `flag_recheck` for each of `accounts`. -/
def flagAll (pool : String) (accounts : List String) (ledger : Nat) : Tracking TrackerError Unit :=
  accounts.foldlM (fun _ account => do
    execute (·.flagRecheck pool account ledger)
    did (.flagged pool account ledger)) ()

namespace Service

variable (c : Service)

/-- The pool is owed no seed once one reached every source. -/
def settleSeed (pool : String) (outcome : SeedOutcome) : Tracking TrackerError Unit :=
  if outcome.failedSources = 0 then setLoop fun l => { l with needsReseed := l.needsReseed.erase pool }
  else pure ()

/-- A seed, and the gauge after it. -/
def reseed (pool : String) (tick : LedgerTick) : Tracking TrackerError Unit := do
  let outcome ← Tracker.seed pool c.seedSources tick c.cadence.refreshBatch
  glance
  settleSeed pool outcome

/-- The full scan: a report, and the retry of a seed that is owed. -/
def fullScan (pool : String) (tick : LedgerTick) : Tracking TrackerError Unit := do
  glance
  glance
  let owed ← Prog.read fun s => decide (pool ∈ s.loop.needsReseed)
  if owed then c.reseed pool tick else pure ()

/-- The full scan as a tick runs it: only a store failure fails the tick. -/
def scan (pool : String) (tick : LedgerTick) : Tracking TrackerError Unit := do
  match ← Prog.caught (c.fullScan pool tick) with
  | .error (.store error) => Prog.fail (.store error)
  | _ => setLoop fun l => { l with lastScan := l.lastScan.insert pool tick.sequence }

/-- Re-reads accounts and flags them. -/
def refreshAndFlag (pool : String) (accounts : List String) (tick : LedgerTick) :
    Tracking TrackerError Unit := do
  let _ ← Tracker.refresh pool accounts tick
  flagAll pool accounts tick.sequence

/-- The gauge, where a row may have come or gone. -/
def regaugeUsers (touched : Bool) : Tracking TrackerError Unit := if touched then glance else pure ()

/-- A tick's whole effect: the accounts this ledger's events named, the stale
pass, and the full scan when it is due. -/
def applyTick (pool : String) (accounts : List String) (tick : LedgerTick) : Tracking TrackerError Unit := do
  refreshAndFlag pool accounts tick
  let updatedBefore := tick.sequence - c.cadence.userRefreshLedgers
  let stale ← statement fun store => (store.usersStale pool updatedBefore c.cadence.refreshBatch, store)
  let staleAccounts := stale.map (·.account)
  refreshAndFlag pool staleAccounts tick
  regaugeUsers (!accounts.isEmpty || !staleAccounts.isEmpty)
  let last ← Prog.read fun s => s.loop.lastScan[pool]?
  if scanDue tick.sequence last c.cadence.phase c.cadence.fullScanLedgers then
    c.scan pool tick
  else
    pure ()

/-- One event: applied, its accounts wait for the tick; failed, the pool's next
tick is declined. -/
def handleEvent (pass : Nat) (pool : String) (ledger : Nat) (event : PoolEvent) :
    Tracking TrackerError Unit := do
  match ← Prog.caught (Tracker.apply pool ledger event) with
  | .ok accounts =>
    setLoop fun l => { l with pending := l.pending.insert pool ((l.pending.getD pool ∅).insertMany accounts) }
    did (.event pool pass ledger event true)
  | .error error =>
    setLoop fun l => { l with unapplied := l.unapplied.insert pool }
    did (.event pool pass ledger event false)
    Prog.fail error

/-- The tick is answered, and published unless a newer one was. -/
def answer (pool : String) (pass : Nat) (tick : LedgerTick) : Tracking TrackerError Unit := do
  did (.tick pool pass tick true true)
  Prog.modify fun s => if tick.sequence > s.published.sequence then { s with published := tick } else s

/-- One tick: what waited for it is taken out, and put back where the tick
fails. Only a tick that applied, with no event lost since the last, is
answered. -/
def handleTick (pool : String) (tick : LedgerTick) (ack : Nat) : Tracking TrackerError Unit := do
  let accounts ← Prog.read fun s => (s.loop.pending.getD pool ∅).toList
  let unapplied ← Prog.read fun s => decide (pool ∈ s.loop.unapplied)
  setLoop fun l => { l with pending := l.pending.erase pool, unapplied := l.unapplied.erase pool }
  match ← Prog.caught (c.applyTick pool accounts tick) with
  | .error error =>
    setLoop fun l => { l with pending := l.pending.insert pool ((l.pending.getD pool ∅).insertMany accounts) }
    did (.tick pool ack tick false false)
    Prog.fail error
  | .ok _ => if unapplied then did (.tick pool ack tick true false) else answer pool ack tick

/-- One gap: the pool is owed a seed before one is tried. -/
def handleGap (pool : String) : Tracking TrackerError Unit := do
  did (.gap pool)
  setLoop fun l => { l with needsReseed := l.needsReseed.insert pool }
  let answer ← Prog.ask Reading.latestLedger
  let head ← Prog.lift (answer.mapError fun error => .chain error.chain)
  c.reseed pool { sequence := head.sequence, closeTime := head.closeTime }

/-- One message, sent in `pass`. -/
def handleMessage (pass : Nat) : PollerMessage → Tracking TrackerError Unit
  | .event pool ledger event => handleEvent pass pool ledger event
  | .tick pool tick ack => c.handleTick pool tick ack
  | .gap pool _ _ => c.handleGap pool

end Service

/-! ## The system -/

/-- The pollers, what they sent and the loop has not taken yet (each message
with the number of the pass that sent it), and the tracker. `ended` is the
loop's end on a store failure, which closes the channel. -/
structure System where
  pollers : String → PollerState
  channel : List (Nat × PollerMessage) := []
  tracker : TrackerState := {}
  ended : Bool := false

/-- What the tracker answered to a pass's tick, once it has handled it. -/
def ackOf (acts : List Did) (pool : String) (pass : Nat) : Option Bool := acts.findSome? fun
  | .tick pool' pass' _ _ answered => if pool' = pool ∧ pass' = pass then some answered else none
  | _ => none

inductive SystemLabel
  | begin (pool : String)
  | answer (pool : String) (world : PollWorld)
  | abandon (pool : String)
  | handle (env : Nat → Reading)

namespace System

/-- The poller's call as this system answers it: a closed channel refuses a
send, a tick's answer is awaited. `none` while the poller has to wait. -/
def world (s : System) (pool : String) (w : PollWorld) : Option PollWorld :=
  match (s.pollers pool).pass with
  | .op .awaitAck _ => match ackOf s.tracker.acts pool (s.pollers pool).passes with
    | some answered => some { w with acked := answered }
    | none => if s.ended then some { w with acked := false } else none
  | _ => some { w with sent := w.sent && !s.ended }

/-- What a call puts into the channel. -/
def sends (s : System) (pool : String) (w : PollWorld) : List (Nat × PollerMessage) :=
  match (s.pollers pool).pass with
  | .op (.send message) _ => if w.sent then [((s.pollers pool).passes, message)] else []
  | _ => []

def setPoller (s : System) (pool : String) (poller : PollerState) : System :=
  { s with pollers := Function.update s.pollers pool poller }

/-- The loop takes one message. Only a store failure ends it. -/
def handled (c : Service) (s : System) (env : Nat → Reading) : System :=
  match s.ended, s.channel with
  | false, (pass, message) :: rest =>
    let out := c.handleMessage pass message env 0 s.tracker
    { s with
      channel := rest
      tracker := out.2.2
      ended := match out.1 with
        | .err error => error.isStore
        | _ => false }
  | _, _ => s

def step (c : Service) (s : System) : SystemLabel → System
  | .begin pool => s.setPoller pool ((s.pollers pool).begun ⟨pool, c.pageLimit⟩)
  | .answer pool w => match s.world pool w with
    | some w => { s.setPoller pool ((s.pollers pool).answered w) with channel := s.channel ++ s.sends pool w }
    | none => s
  | .abandon pool => s.setPoller pool { s.pollers pool with pass := .ret none }
  | .handle env => s.handled c env

/-- A process starts with the cursors and tables it finds, nothing sent, no
account waiting, and whatever seeds its startup left owed. -/
def start (cursors : String → Option Cursor) (store : Store) (needsReseed : BTreeSet String) : System where
  pollers := fun pool => { cursor := cursors pool }
  tracker := { store, loop := { needsReseed } }

end System

end BlendLiquidator
