/-
Three tasks write the auctions table: the tracker from each event
(`Tracker::apply`), the filler where the chain no longer holds a row's auction
(`Filler::read_entries`), and the auctioneer where the chain holds one the
table does not (`Auctioneer::adopt`). Each is a program that reads the chain
and then writes, and anything may happen between the two.

The pool's events are the chain's: whether it holds an auction is what they
make of it. The RPC shows a prefix of them that only grows, and answers a
read from what it shows.
-/
import BlendLiquidator.Calls
import BlendLiquidator.Tracker

namespace BlendLiquidator

open Calls Oracle

/-- The key of an auction, on chain and in the table. -/
abbrev AuctionKey := String × String × AuctionType

/-- A call of one of the writers: a read of an auction's entry, or a
statement. -/
inductive AuctionCall
  | auction (pool account : String) (auctionType : AuctionType)
  | upsert (row : TrackedAuction)
  | delete (pool account : String) (auctionType : AuctionType)

abbrev AuctionCall.Answer : AuctionCall → Type
  | .auction _ _ _ => Except ChainError (Option (Nat × AuctionData))
  | .upsert _ | .delete _ _ _ => Except StoreError Unit

/-- The row a statement is about. -/
def AuctionCall.writes : AuctionCall → Option AuctionKey
  | .auction _ _ _ => none
  | .upsert row => some row.key
  | .delete pool account auctionType => some (pool, account, auctionType)

abbrev AuctionEntry := Entry AuctionCall.Answer

abbrev Writing (ε α : Type) := Proc AuctionCall AuctionCall.Answer ε α

/-! ## The writers -/

/-- A statement, its failure the caller's. -/
def writeAuction {ε : Type} (fromStore : StoreError → ε) : AuctionCall → Writing ε Unit
  | .upsert row => do Proc.lift ((← Proc.call (AuctionCall.upsert row)).mapError fromStore)
  | .delete pool account auctionType => do
    Proc.lift ((← Proc.call (AuctionCall.delete pool account auctionType)).mapError fromStore)
  | .auction _ _ _ => pure ()

/-- `Tracker::apply`, one call at a time. -/
def Tracker.applying (pool : String) (ledger : Nat) : PoolEvent → Writing TrackerError Unit
  | .newAuction auctionType user _ auction =>
    writeAuction .store (.upsert (trackedAuction pool user auctionType auction ledger))
  | .fillAuction auctionType user _ fillPercent _ =>
    if fillPercent ≥ 100 then
      writeAuction .store (.delete pool user auctionType)
    else do
      let answer ← Proc.call (AuctionCall.auction pool user auctionType)
      match ← Proc.lift (answer.mapError .chain) with
      | some (ledger, remaining) =>
        writeAuction .store (.upsert (trackedAuction pool user auctionType remaining ledger))
      | none => writeAuction .store (.delete pool user auctionType)
  | .deleteAuction auctionType user => writeAuction .store (.delete pool user auctionType)
  | _ => pure ()

/-- The tracker's calls, made from its loop. -/
def Tracker.auctionCall : (o : AuctionCall) → Tracking TrackerError o.Answer
  | .auction _ _ _ => Prog.ask Reading.auction
  | .upsert row => answered (·.upsertAuction row)
  | .delete pool account auctionType => answered (·.deleteAuction pool account auctionType)
where
  /-- A statement, its failure a value. -/
  answered (run : Store → Store) : Tracking TrackerError (Except StoreError Unit) := do
    let (answer, took) ← Prog.ask fun m => (m.store, m.executed)
    match answer with
    | .ok _ => Prog.modify (executed (fun _ => []) fun store => ((), run store))
    | .error _ => Prog.modify fun s => if took then executed (fun _ => []) (fun store => ((), run store)) s else s
    pure answer

/-- What the filler learns of a row: the chain's entry, that there is none and
the row was closed, or nothing. -/
inductive EntryRead
  | live (row : TrackedAuction) (auction : AuctionData)
  | closed (row : TrackedAuction)
  | unread

/-- One row of `Filler::read_entries`. -/
def Filler.readEntry (row : TrackedAuction) : Writing StoreError EntryRead := do
  match ← Proc.call (AuctionCall.auction row.pool row.account .userLiquidation) with
  | .ok (some (_, auction)) => pure (.live row auction)
  | .ok none => do
    writeAuction id (.delete row.pool row.account row.auctionType)
    pure (.closed row)
  | .error _ => pure .unread

/-- `Auctioneer::adopt`. -/
def Auctioneer.adopt (pool account : String) : Writing StoreError Unit := do
  match ← Proc.call (AuctionCall.auction pool account .userLiquidation) with
  | .ok (some (ledger, auction)) =>
    writeAuction id (.upsert (Tracker.trackedAuction pool account .userLiquidation auction ledger))
  | .ok none | .error _ => pure ()

/-! ## The chain -/

/-- An event of a pool, and the ledger it happened in. -/
structure ChainEvent where
  pool : String
  ledger : Nat
  event : PoolEvent

/-- Whether the chain holds an auction after an event, from whether it did
before: a partial fill leaves the remainder. -/
def ChainEvent.leaves (e : ChainEvent) (key : AuctionKey) (held : Bool) : Bool :=
  match e.event with
  | .newAuction auctionType user _ _ => if (e.pool, user, auctionType) = key then true else held
  | .fillAuction auctionType user _ fillPercent _ =>
    if (e.pool, user, auctionType) = key ∧ fillPercent ≥ 100 then false else held
  | .deleteAuction auctionType user => if (e.pool, user, auctionType) = key then false else held
  | _ => held

/-- Whether the chain holds an auction after its first `n` events. -/
def heldAt (chain : List ChainEvent) (n : Nat) (key : AuctionKey) : Bool :=
  (chain.take n).foldl (fun held e => e.leaves key held) false

/-! ## The system -/

/-- A program under way: what it has asked, and how many events the RPC showed
at its last read. -/
structure WriterTask (ε α : Type) where
  program : Writing ε α
  log : List AuctionEntry := []
  readAt : Nat := 0

/-- The chain, how much of it the RPC shows, the table, and the three tasks;
one that is idle is `none`. `next` is the event the tracker takes next and
`applied` how many it has applied in order: one that failed holds `applied`
back until the tracker starts over at or before it. -/
structure AuctionSystem where
  chain : List ChainEvent := []
  seen : Nat := 0
  next : Nat := 0
  applied : Nat := 0
  store : Store := {}
  tracker : Option (WriterTask TrackerError Unit) := none
  filler : Option (WriterTask StoreError EntryRead) := none
  auctioneer : Option (WriterTask StoreError Unit) := none

/-- How the world takes a call: a read fails or finds what the chain holds, a
statement fails or not, and one that fails may have been executed. -/
structure AuctionWorld where
  found : Except ChainError (Nat × AuctionData) := .error (.transport "")
  store : Except StoreError Unit := .ok ()
  executed : Bool := true

inductive Writer
  | tracker
  | filler
  | auctioneer
  deriving Repr, DecidableEq

inductive AuctionLabel
  | happens (event : ChainEvent)
  | shows (events : Nat)
  | applies
  | startsOver (event : Nat)
  | reads (row : TrackedAuction)
  | adopts (pool account : String)
  | answers (writer : Writer) (world : AuctionWorld)
  | abandons (writer : Writer)

namespace AuctionSystem

/-- The effect of a statement. -/
def written (store : Store) : AuctionCall → Store
  | .auction _ _ _ => store
  | .upsert row => store.upsertAuction row
  | .delete pool account auctionType => store.deleteAuction pool account auctionType

/-- The answer to a call. -/
def answer (s : AuctionSystem) (w : AuctionWorld) : (o : AuctionCall) → o.Answer
  | .auction pool account auctionType =>
    w.found.map fun entry => if heldAt s.chain s.seen (pool, account, auctionType) then some entry else none
  | .upsert _ | .delete _ _ _ => w.store

/-- What a call does to the table. -/
def effect (s : AuctionSystem) (w : AuctionWorld) (o : AuctionCall) : Store :=
  match w.store with
  | .ok _ => written s.store o
  | .error _ => if w.executed then written s.store o else s.store

/-- A task with its call answered. -/
def advanced {ε α : Type} (s : AuctionSystem) (w : AuctionWorld) (task : WriterTask ε α) (o : AuctionCall)
    (next : o.Answer → Writing ε α) : WriterTask ε α where
  program := next (s.answer w o)
  log := task.log ++ [⟨o, s.answer w o⟩]
  readAt := if o.writes.isNone then s.seen else task.readAt

/-- A task that came to its end is idle. -/
def running {ε α : Type} (task : WriterTask ε α) : Option (WriterTask ε α) :=
  match task.program with
  | .op _ _ => some task
  | .ret _ | .fail _ => none

/-- The tracker's task, and what its end says of its event. -/
def tracking (s : AuctionSystem) (task : WriterTask TrackerError Unit) : AuctionSystem :=
  match task.program with
  | .op _ _ => { s with tracker := some task }
  | .ret _ =>
    { s with tracker := none, next := s.next + 1
             applied := if s.next = s.applied then s.applied + 1 else s.applied }
  | .fail _ => { s with tracker := none, next := s.next + 1 }

/-- A writer's call answered. -/
def answered (s : AuctionSystem) (w : AuctionWorld) : Writer → AuctionSystem
  | .tracker => match s.tracker with
    | some ⟨.op o next, log, readAt⟩ =>
      { s with store := s.effect w o }.tracking (s.advanced w ⟨.op o next, log, readAt⟩ o next)
    | _ => s
  | .filler => match s.filler with
    | some ⟨.op o next, log, readAt⟩ =>
      { s with store := s.effect w o, filler := running (s.advanced w ⟨.op o next, log, readAt⟩ o next) }
    | _ => s
  | .auctioneer => match s.auctioneer with
    | some ⟨.op o next, log, readAt⟩ =>
      { s with store := s.effect w o, auctioneer := running (s.advanced w ⟨.op o next, log, readAt⟩ o next) }
    | _ => s

/-- The filler considers user liquidations alone. -/
def step (s : AuctionSystem) : AuctionLabel → AuctionSystem
  | .happens event => { s with chain := s.chain ++ [event] }
  | .shows events => { s with seen := max s.seen (min events s.chain.length) }
  | .applies => match s.tracker, s.chain[s.next]? with
    | none, some e =>
      if s.next < s.seen then s.tracking { program := Tracker.applying e.pool e.ledger e.event } else s
    | _, _ => s
  | .startsOver event => match s.tracker with
    | none => { s with next := min event s.applied, applied := min event s.applied }
    | some _ => s
  | .reads row =>
    if s.filler.isNone ∧ row.auctionType = .userLiquidation then
      { s with filler := running { program := Filler.readEntry row } }
    else
      s
  | .adopts pool account =>
    if s.auctioneer.isNone then
      { s with auctioneer := running { program := Auctioneer.adopt pool account } }
    else
      s
  | .answers writer w => s.answered w writer
  | .abandons .tracker => { s with tracker := none }
  | .abandons .filler => { s with filler := none }
  | .abandons .auctioneer => { s with auctioneer := none }

end AuctionSystem

end BlendLiquidator
