/-
Reading a pool (`chain/pool.rs`, `RpcClient::ledger_entries`): a snapshot, an
auction's entry, a balance.

Each RPC call reports the ledger it was answered at, and nothing makes the next
one's newer. A snapshot is made of many calls and is refused where two of them
disagree. Bytes are what the decoders make of them: an entry and a returned
value carry the answer of each decoder they are handed to, and a key that does
not encode fails as a call does.
-/
import Mathlib.Data.List.Basic
import BlendLiquidator.Events
import BlendLiquidator.Oracle
import BlendLiquidator.Pool

namespace BlendLiquidator

open Oracle

/-! ## What the RPC answers -/

/-- The ledger keys of a pool (`chain/xdr/keys.rs`). -/
inductive LedgerKey
  | poolInstance (pool : String)
  | reserveList (pool : String)
  | reserveConfig (pool asset : String)
  | reserveData (pool asset : String)
  | positions (pool user : String)
  | auction (pool user : String) (auctionType : AuctionType)
  deriving DecidableEq

/-- The contract's `PoolConfig` (`decode::PoolConfig`). -/
structure InstanceConfig where
  oracle : String
  bstopRate : Nat
  status : PoolStatus
  maxPositions : Nat
  minCollateral : Int

/-- The pool's contract instance, decoded. -/
structure PoolInstance where
  admin : String
  backstop : String
  blndToken : String
  name : String
  config : InstanceConfig

/-- What a decoder makes of bytes that are another's. -/
def undecodable {α : Type} : Except XdrError α := .error (.xdr "")

/-- A ledger entry, as each decoder reads it. -/
structure LedgerEntryData where
  poolInstance : Except XdrError PoolInstance := undecodable
  reserveList : Except XdrError (List String) := undecodable
  reserveConfig : Except XdrError ReserveConfig := undecodable
  reserveData : Except XdrError ReserveData := undecodable
  positions : Except XdrError Positions := undecodable
  auction : Except XdrError AuctionData := undecodable

/-- One `getLedgerEntries` answer. -/
structure RawEntries where
  latestLedger : Nat
  entries : List (LedgerKey × Except XdrError LedgerEntryData)

/-- A SEP-40 price. -/
structure PriceData where
  price : Int
  timestamp : Nat

/-- A view call that is simulated, by contract and function. -/
inductive ViewCall
  | decimals (oracle : String)
  | lastprice (oracle asset : String)
  | balance (token account : String)
  deriving DecidableEq

/-- A returned value, as each decoder reads it. -/
structure ViewValue where
  decimals : Except XdrError Nat := undecodable
  priceData : Except XdrError (Option PriceData) := undecodable
  balance : Except XdrError Int := undecodable

/-- A simulated view call's answer: the value, or the message and code of its
failure. -/
structure ViewSimulation where
  latestLedger : Nat
  outcome : Except (String × Option Nat) ViewValue

/-- How the RPC would answer a reader at one moment. -/
structure ReaderMoment where
  getLedgerEntries : List LedgerKey → Except RpcError RawEntries
  simulateView : ViewCall → Except RpcError ViewSimulation

/-- One RPC call of a reader and its answer. -/
inductive Read
  | entries (keys : List LedgerKey) (answer : Except RpcError RawEntries)
  | view (call : ViewCall) (answer : Except RpcError ViewSimulation)

abbrev Fetch (ε α : Type) := Prog ReaderMoment (List Read) ε α

/-- One RPC call, on the record, its failure the caller's. -/
def fetch {α : Type} (method : ReaderMoment → Except RpcError α) (read : Except RpcError α → Read) :
    Fetch ChainError α := do
  let answer ← Prog.ask method
  Prog.modify (· ++ [read answer])
  Prog.lift (answer.mapError RpcError.chain)

/-! ## Entries -/

/-- Keys in one `getLedgerEntries`. -/
def ENTRY_BATCH : Nat := 200

structure LedgerEntries where
  latestLedger : Nat
  entries : List (LedgerKey × LedgerEntryData)

/-- The entry of a key; the last one answered, where there are two. -/
def LedgerEntries.get (e : LedgerEntries) (key : LedgerKey) : Option LedgerEntryData :=
  (e.entries.reverse.find? fun entry => entry.1 = key).map (·.2)

/-- What the batches read so far make: no ledger before the first. -/
structure Batched where
  latestLedger : Option Nat := none
  entries : List (LedgerKey × LedgerEntryData) := []

/-- The ledger a batch adds to what was read before it. -/
def Batched.ledgerWith (read : Batched) (raw : RawEntries) : Except ChainError Nat :=
  match read.latestLedger with
  | none => .ok raw.latestLedger
  | some first => if first ≠ raw.latestLedger then .error (.ledgerMoved first raw.latestLedger) else .ok first

/-- The entries of a batch that were asked for. -/
def requested (keys : List LedgerKey) (raw : RawEntries) : Except ChainError (List (LedgerKey × LedgerEntryData)) :=
  (raw.entries.filter fun entry => entry.1 ∈ keys).mapM fun entry => do
    pure (entry.1, ← entry.2.mapError .xdr)

/-- One batch. -/
def readBatch (keys : List LedgerKey) (read : Batched) (batch : List LedgerKey) : Fetch ChainError Batched := do
  let raw ← fetch (·.getLedgerEntries batch) (.entries batch)
  let ledger ← Prog.lift (read.ledgerWith raw)
  let entries ← Prog.lift (requested keys raw)
  pure { latestLedger := some ledger, entries := read.entries ++ entries }

/-- `getLedgerEntries` for every key, in batches that agree on the ledger. -/
def ledgerEntries (keys : List LedgerKey) : Fetch ChainError LedgerEntries :=
  if keys.isEmpty then
    Prog.fail (.config "getLedgerEntries needs at least one key")
  else do
    let read ← (keys.toChunks ENTRY_BATCH).foldlM (readBatch keys) {}
    pure { latestLedger := read.latestLedger.getD 0, entries := read.entries }

/-! ## The reader -/

/-- A snapshot with the fields beside `PoolSnapshot`'s. -/
structure FullSnapshot extends PoolSnapshot where
  pool : String
  poolInstance : PoolInstance
  assetIndex : BTreeMap String Nat
  priceTimestamps : BTreeMap String Nat

def SNAPSHOT_ATTEMPTS : Nat := 3

def sameLedger (expected actual : Nat) : Except ChainError Unit :=
  if expected = actual then .ok () else .error (.ledgerMoved expected actual)

namespace PoolReader

variable (pool : String)

/-- Simulates a view call. -/
def view (call : ViewCall) : Fetch ChainError (Nat × ViewValue) := do
  let simulation ← fetch (·.simulateView call) (.view call)
  match simulation.outcome with
  | .ok value => pure (simulation.latestLedger, value)
  | .error (message, contractError) => Prog.fail (.simulation message contractError)

/-- An entry that has to be there. -/
def present (entry : Option LedgerEntryData) (missing : String) : Except ChainError LedgerEntryData :=
  match entry with
  | some data => .ok data
  | none => .error (.shape missing)

/-- The instance and reserve list, and the ledger they came from. -/
def shape : Fetch ChainError (Nat × PoolInstance × List String) := do
  let entries ← ledgerEntries [.poolInstance pool, .reserveList pool]
  let missing (what : String) := "pool " ++ pool ++ " has no " ++ what ++ " entry"
  let data ← Prog.lift (present (entries.get (.poolInstance pool)) (missing "instance"))
  let poolInstance ← Prog.lift (data.poolInstance.mapError .xdr)
  let data ← Prog.lift (present (entries.get (.reserveList pool)) (missing "reserve list"))
  let assets ← Prog.lift (data.reserveList.mapError .xdr)
  pure (entries.latestLedger, poolInstance, assets)

/-- The prices of the assets read so far, and when they were published. -/
structure Priced where
  prices : BTreeMap String Int := ∅
  timestamps : BTreeMap String Nat := ∅

/-- One asset's price. An asset the oracle has none for stays unpriced. -/
def lastprice (oracle : String) (ledger : Nat) (priced : Priced) (asset : String) : Fetch ChainError Priced := do
  let (readAt, value) ← view (.lastprice oracle asset)
  Prog.lift (sameLedger ledger readAt)
  match ← Prog.lift (value.priceData.mapError .xdr) with
  | some price =>
    pure { prices := priced.prices.insert asset price.price
           timestamps := priced.timestamps.insert asset price.timestamp }
  | none => pure priced

/-- The oracle's decimals and one price per asset, all at `ledger`. -/
def prices (oracle : String) (assets : List String) (ledger : Nat) :
    Fetch ChainError (OraclePrices × BTreeMap String Nat) := do
  let (readAt, value) ← view (.decimals oracle)
  Prog.lift (sameLedger ledger readAt)
  let decimals ← Prog.lift (value.decimals.mapError .xdr)
  let priced ← assets.foldlM (lastprice oracle ledger) {}
  let prices ← Prog.lift ((OraclePrices.new decimals priced.prices).mapError .math)
  pure (prices, priced.timestamps)

/-- The reserves decoded so far. -/
structure Reserves where
  reserves : BTreeMap Nat Reserve := ∅
  assetIndex : BTreeMap String Nat := ∅

/-- One reserve of the list. Two of one index are refused. -/
def decodeReserve (entries : LedgerEntries) (r : Reserves) (asset : String) : Except ChainError Reserves := do
  let missing (what : String) := "reserve " ++ asset ++ " has no " ++ what ++ " entry"
  let data ← present (entries.get (.reserveConfig pool asset)) (missing "config")
  let config ← data.reserveConfig.mapError .xdr
  let data ← present (entries.get (.reserveData pool asset)) (missing "data")
  let data ← data.reserveData.mapError .xdr
  let reserve ← (Reserve.new asset config data).mapError .math
  let index := reserve.config.index
  if r.reserves.contains index then
    throw (.shape ("pool " ++ pool ++ " lists two reserves with index " ++ toString index))
  pure { reserves := r.reserves.insert index reserve, assetIndex := r.assetIndex.insert asset index }

/-- A user's positions, empty where the ledger holds none. -/
def decodePositions (entries : LedgerEntries) (positions : BTreeMap String Positions) (user : String) :
    Except ChainError (BTreeMap String Positions) := do
  match entries.get (.positions pool user) with
  | some entry => pure (positions.insert user (← entry.positions.mapError .xdr))
  | none => pure (positions.insert user {})

/-- The keys of a snapshot's second read. -/
def wanted (assets users : List String) : List LedgerKey :=
  assets.flatMap (fun asset => [.reserveConfig pool asset, .reserveData pool asset]) ++ users.map (.positions pool)

/-- One attempt at a snapshot. -/
def snapshotOnce (users : List String) : Fetch ChainError FullSnapshot := do
  let (ledger, poolInstance, assets) ← shape pool
  let entries ← ledgerEntries (wanted pool assets users)
  Prog.lift (sameLedger ledger entries.latestLedger)
  let r ← Prog.lift (assets.foldlM (decodeReserve pool entries) {})
  let positions ← Prog.lift (users.foldlM (decodePositions pool entries) ∅)
  let (prices, priceTimestamps) ← prices poolInstance.config.oracle assets ledger
  pure { ledger, pool, poolInstance, prices, priceTimestamps, positions
         bstopRate := poolInstance.config.bstopRate
         reserves := r.reserves
         assetIndex := r.assetIndex }

/-- A snapshot's attempts, each with its own reads. -/
abbrev Attempts (ε α : Type) := Prog ReaderMoment (List (List Read)) ε α

/-- An attempt, on the record. -/
def attempt (users : List String) : Attempts ChainError FullSnapshot :=
  Prog.within id (fun _ => []) (fun reads attempts => attempts ++ [reads]) (snapshotOnce pool users)

/-- Attempts until one finds the ledger unmoved, `retries` more at most. -/
def retrying (users : List String) : Nat → Attempts ChainError FullSnapshot
  | 0 => attempt pool users
  | retries + 1 => do
    match ← Prog.caught (attempt pool users) with
    | .error (.ledgerMoved _ _) => retrying users retries
    | other => Prog.lift other

/-- One ledger's view of the pool for `users`. -/
def snapshot (users : List String) : Attempts ChainError FullSnapshot :=
  retrying pool users (SNAPSHOT_ATTEMPTS - 1)

/-- The user's open auction of that type, with the ledger it was read at. -/
def auction (user : String) (auctionType : AuctionType) : Fetch ChainError (Option (Nat × AuctionData)) := do
  let key := LedgerKey.auction pool user auctionType
  let entries ← ledgerEntries [key]
  match entries.get key with
  | some entry => do
    let auction ← Prog.lift (entry.auction.mapError .xdr)
    pure (some (entries.latestLedger, auction))
  | none => pure none

/-- `account`'s balance of `token`, with the ledger it was read at. -/
def balance (token account : String) : Fetch ChainError (Nat × Int) := do
  let (ledger, value) ← view (.balance token account)
  let amount ← Prog.lift (value.balance.mapError .xdr)
  pure (ledger, amount)

end PoolReader

end BlendLiquidator
