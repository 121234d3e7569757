/-
Ledger entries and returned values as the bot's types (`chain/xdr/decode.rs`).

Every decoder is written against the contract's own struct definitions: a shape
that does not match is an error, never a default. Two kinds of value are told
apart here that no event carries, a contract's instance and a string; to the
other decoders they are values they do not know.
-/
import BlendLiquidator.PoolReader

namespace BlendLiquidator

/-- A value of a contract's storage: Soroban's, or a string. -/
inductive StorageVal
  | val (value : ScVal)
  | string (text xdr : String)
  deriving DecidableEq

/-- The value of a contract data entry: Soroban's, or the contract's instance. -/
inductive EntryVal
  | val (value : ScVal)
  | contractInstance (storage : List (ScVal × StorageVal)) (xdr : String)

/-- `LedgerEntryData`, with its debug rendering where an error shows it whole. -/
inductive StoredEntry
  | contractData (val : EntryVal) (debug : String)
  | other (debug : String)

def StorageVal.scVal : StorageVal → ScVal
  | .val value => value
  | .string _ xdr => .other xdr

def EntryVal.scVal : EntryVal → ScVal
  | .val value => value
  | .contractInstance _ xdr => .other xdr

namespace Decode

def contractValue : StoredEntry → Except XdrError EntryVal
  | .contractData val _ => .ok val
  | .other debug => .error (.shape "contract data" (.text debug))

/-! ## Fields -/

def asU64 : ScVal → Except XdrError UInt64
  | .u64 number => .ok number
  | other => .error (.shape "u64" (.value other))

def asBool : ScVal → Except XdrError Bool
  | .bool value => .ok value
  | other => .error (.shape "bool" (.value other))

section Fields

variable (fields : BTreeMap String ScVal) (name : String)

def u32Field : Except XdrError Nat := do
  let number ← asU32 (← field fields name)
  pure number.toNat

def u64Field : Except XdrError Nat := do
  let number ← asU64 (← field fields name)
  pure number.toNat

def i128Field : Except XdrError Int := do asAmount (← field fields name)

def boolField : Except XdrError Bool := do asBool (← field fields name)

def addressField : Except XdrError String := do asAddress (← field fields name)

end Fields

/-- A map of reserve index to token amount, as `Positions` stores each side. -/
def indexMap : ScVal → Except XdrError (BTreeMap Nat Int)
  | .map entries => entries.toList.foldlM (fun map (key, val) => match key, val with
    | .u32 index, .i128 hi lo => .ok (map.insert index.toNat (asI128 hi lo))
    | _, _ => .error (.shape "u32 to i128 entry" (.entry key val))) ∅
  | other => .error (.shape "index map" (.value other))

/-! ## The instance -/

def keepSymbol (map : BTreeMap String StorageVal) (entry : ScVal × StorageVal) : BTreeMap String StorageVal :=
  match entry.1 with
  | .symbol name => map.insert name entry.2
  | _ => map

/-- Instance storage by its symbol names; of two of one name the later holds. -/
def symbolStorage (storage : List (ScVal × StorageVal)) : BTreeMap String StorageVal := storage.foldl keepSymbol ∅

def instanceStorage : StoredEntry → Except XdrError (BTreeMap String StorageVal)
  | .contractData (.contractInstance storage _) _ => .ok (symbolStorage storage)
  | .contractData (.val _) debug => .error (.shape "contract instance" (.text debug))
  | .other debug => .error (.shape "contract data" (.text debug))

def storageField (storage : BTreeMap String StorageVal) (name : String) : Except XdrError StorageVal :=
  match storage[name]? with
  | some value => .ok value
  | none => .error (.missingField name)

def storageAddress (storage : BTreeMap String StorageVal) (name : String) : Except XdrError String := do
  asAddress (← storageField storage name).scVal

def asText : StorageVal → Except XdrError String
  | .string text _ => .ok text
  | .val other => .error (.shape "string" (.value other))

def statusField (fields : BTreeMap String ScVal) (name : String) : Except XdrError PoolStatus := do
  PoolStatus.tryFrom (← asU32 (← field fields name))

/-- The pool's contract instance: its `Config`, the addresses and the name. -/
def poolInstance (entry : StoredEntry) : Except XdrError PoolInstance := do
  let storage ← instanceStorage entry
  let config ← structFields (← storageField storage "Config").scVal
  let name ← asText (← storageField storage "Name")
  let admin ← storageAddress storage "Admin"
  let backstop ← storageAddress storage "Backstop"
  let blndToken ← storageAddress storage "BLNDTkn"
  let oracle ← addressField config "oracle"
  let bstopRate ← u32Field config "bstop_rate"
  let status ← statusField config "status"
  let maxPositions ← u32Field config "max_positions"
  let minCollateral ← i128Field config "min_collateral"
  pure { admin, backstop, blndToken, name, config := { oracle, bstopRate, status, maxPositions, minCollateral } }

/-! ## The other entries -/

/-- `ResList`. The position in it is the reserve index that `Positions` keys on. -/
def reserveListValue : ScVal → Except XdrError (List String)
  | .vec items => items.toList.mapM asAddress
  | other => .error (.shape "vector of addresses" (.value other))

def reserveConfigValue (value : ScVal) : Except XdrError ReserveConfig := do
  let fields ← structFields value
  let index ← u32Field fields "index"
  let decimals ← u32Field fields "decimals"
  let cFactor ← u32Field fields "c_factor"
  let lFactor ← u32Field fields "l_factor"
  let util ← u32Field fields "util"
  let maxUtil ← u32Field fields "max_util"
  let rBase ← u32Field fields "r_base"
  let rOne ← u32Field fields "r_one"
  let rTwo ← u32Field fields "r_two"
  let rThree ← u32Field fields "r_three"
  let reactivity ← u32Field fields "reactivity"
  let supplyCap ← i128Field fields "supply_cap"
  let enabled ← boolField fields "enabled"
  pure { index, decimals, cFactor, lFactor, util, maxUtil, rBase, rOne, rTwo, rThree, reactivity, supplyCap, enabled }

def reserveDataValue (value : ScVal) : Except XdrError ReserveData := do
  let fields ← structFields value
  let dRate ← i128Field fields "d_rate"
  let bRate ← i128Field fields "b_rate"
  let irMod ← i128Field fields "ir_mod"
  let bSupply ← i128Field fields "b_supply"
  let dSupply ← i128Field fields "d_supply"
  let backstopCredit ← i128Field fields "backstop_credit"
  let lastTime ← u64Field fields "last_time"
  pure { dRate, bRate, irMod, bSupply, dSupply, backstopCredit, lastTime }

def positionsValue (value : ScVal) : Except XdrError Positions := do
  let fields ← structFields value
  let collateral ← indexMap (← field fields "collateral")
  let liabilities ← indexMap (← field fields "liabilities")
  let supply ← indexMap (← field fields "supply")
  pure { collateral, liabilities, supply }

/-- An entry's value, read by a decoder. -/
def entryValue {α : Type} (decode : ScVal → Except XdrError α) (entry : StoredEntry) : Except XdrError α := do
  decode (← contractValue entry).scVal

/-- An entry, as each decoder reads it. -/
def entryData (entry : StoredEntry) : LedgerEntryData where
  poolInstance := poolInstance entry
  reserveList := entryValue reserveListValue entry
  reserveConfig := entryValue reserveConfigValue entry
  reserveData := entryValue reserveDataValue entry
  positions := entryValue positionsValue entry
  auction := entryValue auctionValue entry

/-! ## Returned values -/

/-- A SEP-40 `PriceData`. -/
def published (value : ScVal) : Except XdrError PriceData := do
  let fields ← structFields value
  let price ← i128Field fields "price"
  let timestamp ← u64Field fields "timestamp"
  pure { price, timestamp }

/-- SEP-40 `lastprice`: no price is no price, and never a zero. -/
def priceData (value : ScVal) : Except XdrError (Option PriceData) :=
  if value = .void then .ok none else do pure (some (← published value))

/-- SEP-40 `decimals`. -/
def decimals (value : ScVal) : Except XdrError Nat := do
  let number ← asU32 value
  pure number.toNat

/-- A token's `balance`, read where it is asked for (`PoolReader::balance`). -/
def balance : ScVal → Except XdrError Int
  | .i128 hi lo => .ok (asI128 hi lo)
  | other => .error (.shape "i128 balance" (.value other))

/-- A returned value, as each decoder reads it. -/
def viewValue (value : ScVal) : ViewValue where
  decimals := decimals value
  priceData := priceData value
  balance := balance value

end Decode

end BlendLiquidator
