/-
The auctioneer's turn on a pool (`service.rs`): the oracle scan, the full scan
and the recheck of flagged borrowers, each a program that issues one statement
at a time on the users table while the tracker issues its own.

What a pass decides and does about one borrower is the auctioneer's; here both
are answers of the world, and neither touches the users table. The state also
remembers what a pass and a scan are held to: the batch as it was read, the
rows flagged since, and every state of the table since.
-/
import Mathlib.Data.Prod.Lex
import Mathlib.Data.String.Basic
import BlendLiquidator.Beside
import BlendLiquidator.Keyset
import BlendLiquidator.Liquidation
import BlendLiquidator.Tracker
import BlendLiquidator.Tx

namespace BlendLiquidator

open Calls Tables

/-! ## What the auctioneer answers -/

inductive AuctioneerError
  | chain (error : ChainError)
  | store (error : StoreError)
  | math (error : MathError)
  | queue (error : QueueError)
  deriving Repr, DecidableEq

inductive SkipReason
  | healthy
  | auctionOpen
  | noPlan
  | ownAccount
  | noLiabilities
  deriving Repr, DecidableEq

/-- What to do about one borrower. -/
inductive Decision
  | liquidate (plan : LiquidationPlan)
  | badDebt
  | skip (reason : SkipReason)
  deriving DecidableEq

inductive CreationKind
  | auction
  | badDebt
  deriving Repr, DecidableEq

/-- One submission of the auctioneer's, sent or not. -/
structure CreationOutcome where
  kind : CreationKind
  account : String
  percent : Option FillPercent
  simulated : Bool
  creationId : Int
  dryRun : Bool
  submission : Option TxOutcome
  deriving DecidableEq

/-- What was done about one decision. -/
inductive ActOutcome
  | skipped (reason : SkipReason)
  | refused
  | recorded (outcome : CreationOutcome)
  deriving DecidableEq

/-- Whether the borrower is settled for now, so that its flag may be cleared. -/
def ActOutcome.settled : ActOutcome → Bool
  | .skipped _ => true
  | .refused => false
  | .recorded outcome => match outcome.submission with
    | some (.succeeded _ _ _) => true
    | some _ => false
    | none => outcome.dryRun

/-! ## The users table -/

/-- Which of a borrower's maps is tested for a reserve. -/
inductive Side
  | collateral
  | liability
  deriving Repr, DecidableEq

/-- Whether a row holds a reserve on a side. -/
def TrackedUser.exposed (user : TrackedUser) (index : Nat) : Side → Bool
  | .collateral => user.collateral.contains index
  | .liability => user.liabilities.contains index

namespace Store

/-- The ledger a borrower is flagged at. -/
def flagOf (store : Store) (pool account : String) : Option Nat :=
  (store.user pool account).bind (·.recheckLedger)

/-- `flag_exposed_to`. -/
def flagExposedTo (store : Store) (pool : String) (index : Nat) (side : Side) (ledger : Nat) : Store :=
  let exposed := fun user : TrackedUser => user.pool = pool && user.exposed index side
  { store with users := store.users.updateAll exposed (raiseRecheck ledger) }

def lowerRecheck (flaggedAt : Nat) : Change TrackedUser.key where
  apply user := if user.recheckLedger = some flaggedAt then { user with recheckLedger := none } else user
  key_apply user := by split <;> rfl

/-- Clears the flag a decision saw, and only that one. -/
def clearRecheck (store : Store) (pool account : String) (flaggedAt : Nat) : Store :=
  { store with users := store.users.update (pool, account) (lowerRecheck flaggedAt) }

/-- The pool's flagged rows, oldest flag first. -/
def usersNeedingRecheck (store : Store) (pool : String) (limit : Nat) : List TrackedUser :=
  let flagged := store.users.rows.filter fun user => user.pool = pool ∧ user.recheckLedger.isSome
  (flagged.insertionSort fun a b => toLex (a.recheckLedger.getD 0, a.account) ≤
    toLex (b.recheckLedger.getD 0, b.account)).take limit

/-- The key the full scan pages by. -/
def healthKey (user : TrackedUser) : Int ×ₗ String := toLex (user.healthFactor, user.account)

/-- The pool's rows below `threshold`. -/
def below (store : Store) (pool : String) (threshold : Int) : List TrackedUser :=
  store.users.rows.filter fun user => user.pool = pool ∧ user.healthFactor < threshold

/-- Those of them after a cursor, in the keyset's order. -/
def usersBelowHealth (store : Store) (pool : String) (threshold : Int) (limit : Nat)
    (after : Option (Int ×ₗ String)) : List TrackedUser :=
  Keyset.page healthKey (store.below pool threshold) after limit

end Store

/-- A statement that writes the users table. -/
inductive UserStatement
  | upsert (row : TrackedUser)
  | delete (pool account : String)
  | flag (pool account : String) (ledger : Nat)
  | flagExposed (pool : String) (index : Nat) (side : Side) (ledger : Nat)
  | clear (pool account : String) (flaggedAt : Nat)

namespace UserStatement

def apply (store : Store) : UserStatement → Store
  | .upsert row => store.upsertUser row
  | .delete pool account => store.deleteUser pool account
  | .flag pool account ledger => store.flagRecheck pool account ledger
  | .flagExposed pool index side ledger => store.flagExposedTo pool index side ledger
  | .clear pool account flaggedAt => store.clearRecheck pool account flaggedAt

/-- The rows a statement flags. -/
def raises (store : Store) : UserStatement → List (String × String)
  | .flag pool account _ => [(pool, account)]
  | .flagExposed pool index side _ =>
    (store.users.rows.filter fun user => user.pool = pool && user.exposed index side).map TrackedUser.key
  | .upsert _ | .delete _ _ | .clear _ _ _ => []

end UserStatement

/-! ## The auctioneer's programs -/

/-- A call of the auctioneer's task. -/
inductive RecheckCall
  | write (statement : UserStatement)
  | needing (pool : String) (limit : Nat)
  | below (pool : String) (threshold : Int) (limit : Nat) (after : Option (Int ×ₗ String))
  | decide (pool : String) (batch : List TrackedUser) (tick : LedgerTick)
  | act (pool account : String) (decision : Decision) (tick : LedgerTick)
  | moves (pool : String) (tick : LedgerTick)
  | stopping

abbrev RecheckCall.Answer : RecheckCall → Type
  | .write _ => Except StoreError Unit
  | .needing _ _ | .below _ _ _ _ => Except StoreError (List TrackedUser)
  | .decide _ _ _ => Except AuctioneerError (String → Option Decision)
  | .act _ _ _ _ => Except AuctioneerError ActOutcome
  | .moves _ _ => Except AuctioneerError (List (Nat × Side))
  | .stopping => Bool

/-- Only a store failure ends a turn early. -/
abbrev Rechecking (α : Type) := Proc RecheckCall RecheckCall.Answer StoreError α

def write (statement : UserStatement) : Rechecking Unit := do
  Proc.lift (← Proc.call (RecheckCall.write statement))

/-- `Auctioneer::scan_oracle`, as the tick runs it: every borrower a move went
against is flagged. -/
def scanOracle (pool : String) (tick : LedgerTick) : Rechecking Unit := do
  match ← Proc.call (RecheckCall.moves pool tick) with
  | .ok moves => moves.forM fun (index, side) => write (.flagExposed pool index side tick.sequence)
  | .error (.store error) => Proc.lift (.error error)
  | .error _ => pure ()

/-- Flags a page. -/
def flagPage (pool : String) (ledger : Nat) (page : List TrackedUser) : Rechecking Unit :=
  page.forM fun user => write (.flag pool user.account ledger)

/-- The full scan's pages from a cursor on: how many rows it flagged by the end
of the scan, or `none` while `fuel` is too small to see it. -/
def scanPages (pool : String) (threshold : Int) (ledger limit : Nat) :
    Nat → Option (Int ×ₗ String) → Nat → Rechecking (Option Nat)
  | 0, _, _ => pure none
  | fuel + 1, after, flagged => do
    if ← Proc.call RecheckCall.stopping then
      pure (some flagged)
    else
      let page ← Proc.lift (← Proc.call (RecheckCall.below pool threshold limit after))
      match page.getLast? with
      | none => pure (some flagged)
      | some last => do
        flagPage pool ledger page
        scanPages pool threshold ledger limit fuel (some (Store.healthKey last)) (flagged + page.length)

/-- `full_scan_and_flag`. -/
def fullScanAndFlag (pool : String) (threshold : Int) (ledger limit fuel : Nat) : Rechecking (Option Nat) :=
  scanPages pool threshold ledger limit fuel none 0

/-- Re-raises a flag one ledger past the tick, or at its own if that is later. -/
def moveFlagForward (pool account : String) (flaggedAt : Option Nat) (tick : LedgerTick) : Rechecking Unit :=
  let retryAt := min (tick.sequence + 1) u32Max
  write (.flag pool account (match flaggedAt with
    | some flagged => max flagged retryAt
    | none => retryAt))

/-- What an action makes of the borrower's flag. -/
def settleFlag (pool account : String) (flaggedAt : Option Nat) (tick : LedgerTick) :
    Except AuctioneerError ActOutcome → Rechecking Unit
  | .ok outcome =>
    if outcome.settled then
      match flaggedAt with
      | some flaggedAt => write (.clear pool account flaggedAt)
      | none => pure ()
    else
      moveFlagForward pool account flaggedAt tick
  | .error (.store error) => Proc.lift (.error error)
  | .error _ => moveFlagForward pool account flaggedAt tick

/-- Acts on each decision, until shutdown. -/
def actOn (pool : String) (flaggedAt : String → Option Nat) (tick : LedgerTick) :
    List (String × Decision) → Rechecking Unit
  | [] => pure ()
  | (account, decision) :: rest => do
    if ← Proc.call RecheckCall.stopping then
      pure ()
    else
      let acted ← Proc.call (RecheckCall.act pool account decision tick)
      settleFlag pool account (flaggedAt account) tick acted
      actOn pool flaggedAt tick rest

/-- The flag a batch read an account under. -/
def flaggedAtOf (batch : List TrackedUser) (account : String) : Option Nat :=
  (batch.find? fun user => user.account = account).bind (·.recheckLedger)

/-- One decision for each row that could be decided, in the batch's order. -/
def decisionsOf (batch : List TrackedUser) (decided : String → Option Decision) : List (String × Decision) :=
  batch.filterMap fun user => (decided user.account).map fun decision => (user.account, decision)

/-- The rest of the batch, in the order of a set. -/
def undecidedOf (batch : List TrackedUser) (decided : String → Option Decision) : List String :=
  ((batch.filter fun user => (decided user.account).isNone).map (·.account)).insertionSort (· ≤ ·)

/-- Decides and acts on a batch, clearing each flag at the ledger the batch
read it under. -/
def recheckBatch (pool : String) (batch : List TrackedUser) (tick : LedgerTick) : Rechecking Unit :=
  if batch.isEmpty then
    pure ()
  else do
    match ← Proc.call (RecheckCall.decide pool batch tick) with
    | .error (.store error) => Proc.lift (.error error)
    | .error _ => pure ()
    | .ok decided => do
      (undecidedOf batch decided).forM fun account => moveFlagForward pool account (flaggedAtOf batch account) tick
      actOn pool (flaggedAtOf batch) tick (decisionsOf batch decided)

/-- One pool's share of a tick. A turn whose full scan has not come to its end
goes no further. -/
structure Turn where
  pool : String
  tick : LedgerTick
  limit : Nat
  threshold : Int
  oracleDue : Bool := false
  fullDue : Bool := false
  fuel : Nat := 0

/-- The oracle scan's share. -/
def Turn.oracle (turn : Turn) : Rechecking Unit :=
  if turn.oracleDue then scanOracle turn.pool turn.tick else pure ()

/-- The full scan's share: whether the turn goes on. -/
def Turn.scan (turn : Turn) : Rechecking Bool :=
  if turn.fullDue then do
    let flagged ← fullScanAndFlag turn.pool turn.threshold turn.tick.sequence turn.limit turn.fuel
    pure flagged.isSome
  else
    pure true

/-- `auctioneer_tick` for one pool. -/
def Turn.program (turn : Turn) : Rechecking Unit := do
  turn.oracle
  if ← turn.scan then do
    let batch ← Proc.lift (← Proc.call (RecheckCall.needing turn.pool turn.limit))
    recheckBatch turn.pool batch turn.tick
  else
    pure ()

/-! ## The system -/

/-- What the table went through since a read: the rows flagged, and each of its
states, the one that was read first. -/
structure Since where
  raised : List (String × String) := []
  stores : List Store := []

def Since.then (since : Since) (raised : List (String × String)) (store : Store) : Since :=
  ⟨since.raised ++ raised, since.stores ++ [store]⟩

/-- The table, and what is remembered of it: the rows of the batch whose flag
is not cleared yet, what the last action answered, and the scan under way with
the cursor of its next page. -/
structure RecheckState where
  store : Store := {}
  held : List TrackedUser := []
  sinceBatch : Since := {}
  acted : Option (String × Except AuctioneerError ActOutcome) := none
  scanning : Option (String × Int) := none
  cursor : Option (Int ×ₗ String) := none
  sinceScan : Since := {}

/-- How the world takes a call; a statement that fails may have been
executed. -/
structure RecheckWorld where
  store : Except StoreError Unit := .ok ()
  executed : Bool := true
  decided : Except AuctioneerError (String → Option Decision) := .ok fun _ => none
  acted : Except AuctioneerError ActOutcome := .ok .refused
  moves : Except AuctioneerError (List (Nat × Side)) := .ok []
  stopping : Bool := false

namespace RecheckState

variable (s : RecheckState)

/-- A statement executed, whoever issued it. -/
def wrote (statement : UserStatement) : RecheckState :=
  let store := statement.apply s.store
  let raised := statement.raises s.store
  { s with
    store
    held := match statement with
      | .clear pool account _ => s.held.filter fun user => user.key ≠ (pool, account)
      | _ => s.held
    sinceBatch := s.sinceBatch.then raised store
    sinceScan := s.sinceScan.then raised store }

/-- A batch read. -/
def tookBatch (batch : List TrackedUser) : RecheckState :=
  { s with held := batch, sinceBatch := ⟨[], [s.store]⟩ }

/-- A page read: the first one begins the scan, and an empty one ends it. -/
def tookPage (pool : String) (threshold : Int) (after : Option (Int ×ₗ String)) (page : List TrackedUser) :
    RecheckState :=
  { s with
    scanning := if page.isEmpty then none else some (pool, threshold)
    cursor := (page.getLast?.map Store.healthKey).or after
    sinceScan := if after.isNone then ⟨[], [s.store]⟩ else s.sinceScan.then [] s.store }

/-- A call of the auctioneer's. -/
def exec (w : RecheckWorld) : (o : RecheckCall) → o.Answer × RecheckState
  | .write statement => (w.store, if w.store.isOk || w.executed then s.wrote statement else s)
  | .needing pool limit => match w.store with
    | .ok _ =>
      let batch := s.store.usersNeedingRecheck pool limit
      (.ok batch, s.tookBatch batch)
    | .error error => (.error error, s)
  | .below pool threshold limit after => match w.store with
    | .ok _ =>
      let page := s.store.usersBelowHealth pool threshold limit after
      (.ok page, s.tookPage pool threshold after page)
    | .error error => (.error error, { s with scanning := none })
  | .decide _ _ _ => (w.decided, s)
  | .act _ account _ _ => (w.acted, { s with acted := some (account, w.acted) })
  | .moves _ _ => (w.moves, s)
  | .stopping => (w.stopping, s)

end RecheckState

/-- What the tracker writes of the users table. -/
inductive TrackerWrite
  | upsert (row : TrackedUser)
  | delete (pool account : String)
  | flag (pool account : String) (ledger : Nat)

def TrackerWrite.statement : TrackerWrite → UserStatement
  | .upsert row => .upsert row
  | .delete pool account => .delete pool account
  | .flag pool account ledger => .flag pool account ledger

/-- The auctioneer's turns, one after the other, beside the tracker. -/
def recheck : Machine RecheckCall RecheckCall.Answer StoreError RecheckState RecheckWorld TrackerWrite Turn where
  other s label := s.wrote label.statement
  exec s w o := s.exec w o
  program := Turn.program

end BlendLiquidator
