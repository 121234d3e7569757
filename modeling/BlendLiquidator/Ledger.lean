/-
The poller (`ledger.rs`): chain head, every pool event since the cursor, the
ledger's tick, and only on the tick's acknowledgement the cursor.

One pass is a program of the calls it awaits, so that a pass can be stopped at
any of them and several pollers can take turns. `PollerState` is one pool's
poller with what outlives a pass: the stored cursor and `gap_reported_at`.

Timings, metrics, notifications and log lines are left out, except the one
line an event that does not decode leaves behind. Ledger numbers are naturals;
the one `u32` operation on them saturates.
-/
import BlendLiquidator.Calls
import BlendLiquidator.Events
import BlendLiquidator.Fill

namespace BlendLiquidator

open Calls

/-! ## What the RPC and the store answer -/

/-- `getHealth`, reduced to the edge of the retained window. -/
structure Health where
  oldestLedger : Nat
  deriving Repr, DecidableEq

/-- `getLatestLedger`. -/
structure LatestLedger where
  sequence : Nat
  closeTime : Nat
  deriving Repr, DecidableEq

/-- One contract event, topics and value decoded. -/
structure Event where
  ledger : Nat
  id : String
  contractId : String
  inSuccessfulContractCall : Bool
  topics : List ScVal
  value : ScVal
  deriving Repr, DecidableEq

/-- One page of events. -/
structure Events where
  latestLedger : Nat
  cursor : Option String
  events : List Event
  deriving Repr, DecidableEq

/-- A `getEvents` request. -/
structure EventQuery where
  startLedger : Option Nat
  cursor : Option String
  contractIds : List String
  limit : Nat
  deriving Repr, DecidableEq

/-- A failure of the store: a query that failed, or a column that did not read
back as what this crate writes. -/
inductive StoreError
  | query (what : String)
  | decimal (column value : String)
  | json (column detail : String)
  deriving Repr, DecidableEq

/-- Where an event stream was read up to. -/
structure Cursor where
  ledger : Nat
  pagingToken : Option String := none
  deriving Repr, DecidableEq

/-! ## Messages -/

/-- A ledger the poller has caught up to. -/
structure LedgerTick where
  sequence : Nat
  closeTime : Nat
  deriving Repr, DecidableEq

/-- What a poller sends downstream. A tick's acknowledgement channel is named
by the number of the pass that made it: a pass makes at most one. -/
inductive PollerMessage
  | event (pool : String) (ledger : Nat) (event : PoolEvent)
  | tick (pool : String) (tick : LedgerTick) (ack : Nat)
  | gap (pool : String) (last oldest : Nat)

/-- The pool a message is about. -/
def PollerMessage.pool : PollerMessage → String
  | .event pool _ _ | .tick pool _ _ | .gap pool _ _ => pool

inductive LedgerError
  | chain (error : ChainError)
  | store (error : StoreError)
  | closed
  | notApplied (ledger : Nat)
  deriving Repr, DecidableEq

/-! ## A pass -/

/-- What a pass waits for, and what it does to the poller it belongs to: reads
and writes of the field `gap_reported_at`, and the log line of an event that
did not decode. -/
inductive PollOp
  | health
  | latestLedger
  | cursor
  | gapReportedAt
  | events (query : EventQuery)
  | send (message : PollerMessage)
  | setGapReportedAt (ledger : Nat)
  | undecodable (ledger : Nat) (id : String) (error : XdrError)
  | awaitAck
  | setCursor (cursor : Cursor)

/-- The answers: a send is `false` on a closed channel, an acknowledgement
`false` when its sender was dropped. -/
abbrev PollOp.Answer : PollOp → Type
  | .health => Except RpcError Health
  | .latestLedger => Except RpcError LatestLedger
  | .cursor => Except StoreError (Option Cursor)
  | .gapReportedAt => Option Nat
  | .events _ => Except RpcError Events
  | .send _ => Bool
  | .setGapReportedAt _ | .undecodable _ _ _ => Unit
  | .awaitAck => Bool
  | .setCursor _ => Except StoreError Unit

abbrev PollEntry := Entry PollOp.Answer

abbrev Pass (α : Type) := Proc PollOp PollOp.Answer LedgerError α

/-- A page count beyond which paging is presumed broken. -/
def MAX_PAGES : Nat := 10000

/-- The result of paging through one `getEvents` range. -/
structure DrainOutcome where
  drained : Bool
  pages : Nat
  stallReason : Option String
  deriving Repr, DecidableEq

structure LedgerPoller where
  pool : String
  pageLimit : Nat
  deriving Repr, DecidableEq

/-- An RPC answer, a failure of it failing the pass. -/
def readRpc {α : Type} (answer : Except RpcError α) : Pass α :=
  Proc.lift (answer.mapError fun error => .chain error.chain)

/-- A store answer, a failure of it failing the pass. -/
def readStore {α : Type} (answer : Except StoreError α) : Pass α := Proc.lift (answer.mapError .store)

/-- Sends downstream; a closed channel ends the pass. -/
def send (message : PollerMessage) : Pass Unit := do
  let sent ← Proc.call (.send message)
  if sent then pure () else .fail .closed

/-- `RpcClient::events`: one page, the request checked first. -/
def getEvents (query : EventQuery) : Pass Events :=
  if query.limit = 0 ∨ query.limit > 10000 then
    .fail (.chain (.config "getEvents limit is 1 to 10000"))
  else if query.contractIds.length = 0 ∨ query.contractIds.length > 25 then
    .fail (.chain (.config "getEvents takes 1 to 25 contract ids"))
  else
    match query.startLedger, query.cursor with
    | some _, none | none, some _ => do readRpc (← Proc.call (.events query))
    | _, _ => .fail (.chain (.config "getEvents needs a start ledger or a cursor, not both"))

namespace LedgerPoller

variable (p : LedgerPoller)

/-- One event of a page: decoded and sent, or skipped. -/
def deliver (event : Event) : Pass PUnit :=
  if event.contractId ≠ p.pool ∨ event.inSuccessfulContractCall = false then
    pure ()
  else
    match decodePoolEvent event.topics event.value with
    | .ok (some decoded) => send (.event p.pool event.ledger decoded)
    | .ok none => pure ()
    | .error error => Proc.call (PollOp.undecodable event.ledger event.id error)

/-- The request for the page after `requestCursor`, or for the first one. -/
def query (start : Nat) (requestCursor : Option String) : EventQuery where
  startLedger := if requestCursor.isNone then some start else none
  cursor := requestCursor
  contractIds := [p.pool]
  limit := p.pageLimit

/-- One page, its events delivered. -/
def readPage (start : Nat) (requestCursor : Option String) : Pass Events := do
  let page ← getEvents (p.query start requestCursor)
  page.events.forM p.deliver
  pure page

/-- Paging stops without claiming the range drained. -/
def stalled (pages : Nat) (reason : String) : Pass DrainOutcome :=
  pure { drained := false, pages, stallReason := some reason }

/-- `drain_events`'s loop, `left` pages short of the cap: a short page is the
last one. -/
def drainPages (start : Nat) : Nat → Option String → Pass DrainOutcome
  | 0, requestCursor => do
    let page ← p.readPage start requestCursor
    if page.events.length < p.pageLimit then
      pure { drained := true, pages := MAX_PAGES, stallReason := none }
    else
      stalled MAX_PAGES "page cap reached"
  | left + 1, requestCursor => do
    let page ← p.readPage start requestCursor
    let pages := MAX_PAGES - (left + 1)
    if page.events.length < p.pageLimit then
      pure { drained := true, pages, stallReason := none }
    else
      match page.cursor with
      | some next =>
        if some next = requestCursor then stalled pages "cursor did not advance"
        else drainPages start left (some next)
      | none => stalled pages "full page returned no cursor"

/-- Pages `getEvents` from `start` until a short page. -/
def drainEvents (start : Nat) : Pass DrainOutcome := p.drainPages start (MAX_PAGES - 1) none

/-- The first ledger to read, by the cursor alone. -/
def startAfter (head : LatestLedger) : Option Cursor → Nat
  | none => head.sequence
  | some cursor => min (cursor.ledger + 1) u32Max

/-- The gap, once per stale cursor. -/
def reportGap (cursor : Cursor) (oldest : Nat) : Pass Unit := do
  let gapReportedAt ← Proc.call PollOp.gapReportedAt
  if gapReportedAt = some cursor.ledger then
    pure ()
  else
    send (.gap p.pool cursor.ledger oldest)
    Proc.call (PollOp.setGapReportedAt cursor.ledger)

/-- The pass's start: past the cursor, or the window's edge when the cursor
fell out of it. -/
def startLedger (health : Health) (head : LatestLedger) (stored : Option Cursor) : Pass Nat :=
  match stored with
  | none => pure (startAfter head stored)
  | some cursor =>
    if startAfter head stored < health.oldestLedger then do
      p.reportGap cursor health.oldestLedger
      pure health.oldestLedger
    else
      pure (startAfter head stored)

/-- The tick, its acknowledgement, and only then the cursor. -/
def commit (ack : Nat) (head : LatestLedger) : Pass (Option LedgerTick) := do
  let tick : LedgerTick := { sequence := head.sequence, closeTime := head.closeTime }
  send (.tick p.pool tick ack)
  let applied ← Proc.call .awaitAck
  if applied then
    readStore (← Proc.call (.setCursor { ledger := head.sequence }))
    pure (some tick)
  else
    .fail (.notApplied head.sequence)

/-- One pass: head, events since the cursor, then the tick and the cursor.
`ack` names this pass's acknowledgement channel. -/
def pollOnce (ack : Nat) : Pass (Option LedgerTick) := do
  let health ← readRpc (← Proc.call .health)
  let head ← readRpc (← Proc.call .latestLedger)
  let stored ← readStore (← Proc.call .cursor)
  let start ← p.startLedger health head stored
  if start > head.sequence then
    pure none
  else
    let outcome ← p.drainEvents start
    if outcome.drained then p.commit ack head else pure none

end LedgerPoller

/-! ## A poller over time -/

/-- One pool's poller: the cursor its store holds, its field, how many passes
it began (which numbers the one in progress), and that pass with the record of
its calls. -/
structure PollerState where
  cursor : Option Cursor := none
  gapReportedAt : Option Nat := none
  passes : Nat := 0
  log : List PollEntry := []
  pass : Pass (Option LedgerTick) := .ret none

/-- How the world would answer each call at one moment. A cursor write that
fails may have been written all the same. -/
structure PollWorld where
  health : Except RpcError Health := .error (.transport "")
  latestLedger : Except RpcError LatestLedger := .error (.transport "")
  cursor : Except StoreError Unit := .ok ()
  events : Except RpcError Events := .error (.transport "")
  sent : Bool := true
  acked : Bool := false
  setCursor : Except StoreError Unit := .ok ()
  written : Bool := true

/-- The answer to a call of the poller `s`. -/
def PollWorld.answer (w : PollWorld) (s : PollerState) : (o : PollOp) → o.Answer
  | .health => w.health
  | .latestLedger => w.latestLedger
  | .cursor => w.cursor.map fun _ => s.cursor
  | .gapReportedAt => s.gapReportedAt
  | .events _ => w.events
  | .send _ => w.sent
  | .setGapReportedAt _ | .undecodable _ _ _ => ()
  | .awaitAck => w.acked
  | .setCursor _ => w.setCursor

/-- Whether a cursor write took effect. -/
def PollWorld.writes (w : PollWorld) : Bool := match w.setCursor with
  | .ok _ => true
  | .error _ => w.written

inductive PollLabel
  | begin
  | answer (world : PollWorld)
  | abandon
  | restart

namespace PollerState

/-- What a call leaves behind besides its answer. -/
def effect (s : PollerState) (w : PollWorld) : PollOp → PollerState
  | .setGapReportedAt ledger => { s with gapReportedAt := some ledger }
  | .setCursor cursor => if w.writes then { s with cursor := some cursor } else s
  | _ => s

/-- The pass takes the world's answer to the call it waits for. -/
def answered (s : PollerState) (w : PollWorld) : PollerState :=
  match s.pass with
  | .op o next =>
    let a := w.answer s o
    { s.effect w o with log := s.log ++ [⟨o, a⟩], pass := next a }
  | .ret _ | .fail _ => s

/-- `run`'s loop starts a pass once the one before has ended. -/
def begun (p : LedgerPoller) (s : PollerState) : PollerState :=
  match s.pass with
  | .op _ _ => s
  | .ret _ | .fail _ =>
    { s with passes := s.passes + 1, log := [], pass := p.pollOnce (s.passes + 1) }

/-- A pass's future may be dropped at any call; a new process has neither it
nor the field. -/
def step (p : LedgerPoller) (s : PollerState) : PollLabel → PollerState
  | .begin => s.begun p
  | .answer w => s.answered w
  | .abandon => { s with pass := .ret none }
  | .restart => { s with gapReportedAt := none, pass := .ret none }

end PollerState

end BlendLiquidator
