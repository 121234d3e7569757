/-
The filler's wallet inventory (`inventory.rs`): balances per asset, a fee
reserve withheld from the native asset, and the reservations a plan takes for
what it will spend.

Each operation holds the ledger's lock from its first read to its last write,
so it is one step of the ledger. Arithmetic saturates, as the source says it
does by design.
-/
import BlendLiquidator.Fixed
import BlendLiquidator.Reserve

namespace BlendLiquidator

/-- An `i128` result held at the type's bounds: `saturating_add` and
`saturating_sub`. -/
def saturate (x : Int) : Int := max i128Min (min x i128Max)

namespace Inventory

/-- The wallet state behind an inventory. -/
structure Ledger where
  balances : BTreeMap String Int
  reserved : BTreeMap String Int
  readAt : Option Nat
  feeAsset : String
  feeReserve : Int

/-- The reserve is unsigned by type: a negative one would raise what is
available. -/
def new (feeAsset : String) (feeReserve : UInt64) : Ledger :=
  { balances := ∅, reserved := ∅, readAt := none, feeAsset, feeReserve := feeReserve.toNat }

/-- What is held back from `asset` for fees. -/
def Ledger.withheld (ledger : Ledger) (asset : String) : Int :=
  if asset = ledger.feeAsset then ledger.feeReserve else 0

def Ledger.available (ledger : Ledger) (asset : String) : Int :=
  let balance := ledger.balances.getD asset 0
  let reserved := ledger.reserved.getD asset 0
  max (saturate (saturate (balance - reserved) - ledger.withheld asset)) 0

/-- A missing key is left absent: nothing debits an asset it never held a
claim on. -/
def subtract (map : BTreeMap String Int) (asset : String) (amount : Int) : BTreeMap String Int :=
  match map[asset]? with
  | some value => map.insert asset (max (saturate (value - amount)) 0)
  | none => map

/-- Replaces the tracked balances with a fresh read; open reservations
survive. -/
def recordBalances (ledger : Ledger) (balances : BTreeMap String Int) (instant : Nat) : Ledger :=
  { ledger with balances, readAt := some instant }

/-- Never read, or read more than `maxAge` before `now`. -/
def stale (ledger : Ledger) (now maxAge : Nat) : Bool :=
  match ledger.readAt with
  | none => true
  | some readAt => decide (now - readAt > maxAge)

/-- What every tracked asset has free to spend. -/
def available (ledger : Ledger) : BTreeMap String Int :=
  (ledger.balances.keys ++ ledger.reserved.keys).foldl
    (fun map asset => map.insert asset (ledger.available asset)) ∅

/-- A plan's claim on the wallet. -/
structure Reservation where
  amounts : BTreeMap String Int
  settled : Bool

inductive InventoryError
  | invalidAmount (asset : String) (amount : Int)
  | insufficient (asset : String) (needed available : Int)
  deriving Repr, DecidableEq

/-- The check of one asset of a reservation. -/
def claimable (ledger : Ledger) (asset : String) (needed : Int) : Except InventoryError Unit :=
  if needed ≤ 0 then
    .error (.invalidAmount asset needed)
  else if needed > ledger.available asset then
    .error (.insufficient asset needed (ledger.available asset))
  else
    .ok ()

/-- `entry(asset).or_insert(0)`, raised by `amount`. -/
def hold (reserved : BTreeMap String Int) (asset : String) (amount : Int) : BTreeMap String Int :=
  reserved.insert asset (saturate (reserved.getD asset 0 + amount))

/-- Takes a reservation for `amounts`, or refuses with the first asset that
asks for more than is available. Every asset is checked before any is
reserved. -/
def reserve (ledger : Ledger) (amounts : BTreeMap String Int) :
    Except InventoryError Reservation × Ledger :=
  match amounts.toList.forM fun entry => claimable ledger entry.1 entry.2 with
  | .error e => (.error e, ledger)
  | .ok () =>
    let reserved := amounts.toList.foldl (fun reserved entry => hold reserved entry.1 entry.2) ledger.reserved
    (.ok { amounts, settled := false }, { ledger with reserved })

namespace Reservation

/-- Every amount off `reserved`. -/
def unhold (reservation : Reservation) (ledger : Ledger) : Ledger :=
  let amounts := reservation.amounts.toList
  { ledger with reserved := amounts.foldl (fun map entry => subtract map entry.1 entry.2) ledger.reserved }

/-- What a token's end of scope does: an unsettled one is released. -/
def drop (reservation : Reservation) (ledger : Ledger) : Ledger :=
  if reservation.settled then ledger else reservation.unhold ledger

/-- Marks the amounts spent: off the reservation and off the balance. The
token then ends its scope. -/
def consume (reservation : Reservation) (ledger : Ledger) : Ledger :=
  let reservation := { reservation with settled := true }
  let ledger := reservation.amounts.toList.foldl (fun ledger entry =>
    { ledger with reserved := subtract ledger.reserved entry.1 entry.2
                  balances := subtract ledger.balances entry.1 entry.2 }) ledger
  reservation.drop ledger

/-- Returns the amounts to what later plans may spend. -/
def release (reservation : Reservation) (ledger : Ledger) : Ledger :=
  let reservation := { reservation with settled := true }
  reservation.drop (reservation.unhold ledger)

end Reservation

/-! ## The ledger and the tokens its callers hold -/

/-- A wallet as a read reports it: an `i128` for each asset. -/
structure Balances where
  amounts : BTreeMap String Int
  fits : ∀ asset, i128Min ≤ amounts.getD asset 0 ∧ amounts.getD asset 0 ≤ i128Max

/-- A ledger, and the reservations issued by it and not settled yet. -/
structure Wallet where
  ledger : Ledger
  tokens : List Reservation

/-- What a caller does: a read recorded, a reservation asked for, or the
settlement of the `i`-th token still open, by one of its three routes. -/
inductive Op where
  | recordBalances (balances : Balances) (instant : Nat)
  | reserve (amounts : BTreeMap String Int)
  | consume (i : Nat)
  | release (i : Nat)
  | drop (i : Nat)

namespace Wallet

/-- Settlement is by value: the token is gone. -/
def settle (wallet : Wallet) (i : Nat) (route : Reservation → Ledger → Ledger) : Wallet :=
  match wallet.tokens[i]? with
  | some token => { ledger := route token wallet.ledger, tokens := wallet.tokens.eraseIdx i }
  | none => wallet

def step (wallet : Wallet) : Op → Wallet
  | .recordBalances balances instant =>
    { wallet with ledger := Inventory.recordBalances wallet.ledger balances.amounts instant }
  | .reserve amounts =>
    match Inventory.reserve wallet.ledger amounts with
    | (.ok token, ledger) => { ledger, tokens := wallet.tokens ++ [token] }
    | (.error _, ledger) => { wallet with ledger }
  | .consume i => wallet.settle i Reservation.consume
  | .release i => wallet.settle i Reservation.release
  | .drop i => wallet.settle i Reservation.drop

/-- The wallet after its callers did `ops`, in that order. -/
def run (feeAsset : String) (feeReserve : UInt64) (ops : List Op) : Wallet :=
  ops.foldl step { ledger := new feeAsset feeReserve, tokens := [] }

end Wallet

end Inventory

end BlendLiquidator
