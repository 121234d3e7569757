/-
The store's tables (`store.rs`, `migrations/`) as the tracker reads and writes
them: tracked borrowers and open auctions, each keyed as its primary key says,
and the statements issued on them. A statement's failure is the caller's
matter (`Tracker`).
-/
import BlendLiquidator.Events
import BlendLiquidator.Fill
import BlendLiquidator.Tables
import Mathlib.Data.List.Sort

namespace BlendLiquidator

open Tables

/-- A borrower the bot tracks: a row exists only while the account owes
something. -/
structure TrackedUser where
  pool : String
  account : String
  healthFactor : Int
  collateral : BTreeMap Nat Int
  liabilities : BTreeMap Nat Int
  updatedLedger : Nat
  recheckLedger : Option Nat

def TrackedUser.key (user : TrackedUser) : String × String := (user.pool, user.account)

/-- An open auction, and the filler's plan for it. -/
structure TrackedAuction where
  pool : String
  account : String
  auctionType : AuctionType
  startLedger : Nat
  fillLedger : Option Nat
  percent : Option FillPercent
  bid : BTreeMap String Int
  lot : BTreeMap String Int
  updatedLedger : Nat

def TrackedAuction.key (auction : TrackedAuction) : String × String × AuctionType :=
  (auction.pool, auction.account, auction.auctionType)

structure Store where
  users : Table TrackedUser.key := .empty
  auctions : Table TrackedAuction.key := .empty

namespace Store

/-- A borrower's row written over: every column but `recheck_ledger`. -/
def keepRecheck : Conflict TrackedUser.key where
  merge old new := { new with recheckLedger := old.recheckLedger }
  key_merge _ _ := rfl

def replaceAuction : Conflict TrackedAuction.key where
  merge _ new := new
  key_merge _ _ := rfl

/-- The statement does not write `recheck_ledger`: a new row's is null. -/
def upsertUser (store : Store) (user : TrackedUser) : Store :=
  { store with users := store.users.upsert keepRecheck { user with recheckLedger := none } }

def deleteUser (store : Store) (pool account : String) : Store :=
  { store with users := store.users.delete (pool, account) }

def user (store : Store) (pool account : String) : Option TrackedUser := store.users.find (pool, account)

/-- The ledger a borrower's row was computed at. -/
def computedAt (store : Store) (pool account : String) : Option Nat :=
  (store.user pool account).map (·.updatedLedger)

/-- `GREATEST(recheck_ledger, ledger)`. -/
def raiseRecheck (ledger : Nat) : Change TrackedUser.key where
  apply user := { user with recheckLedger := some (match user.recheckLedger with
    | some raised => max raised ledger
    | none => ledger) }
  key_apply _ := rfl

def flagRecheck (store : Store) (pool account : String) (ledger : Nat) : Store :=
  { store with users := store.users.update (pool, account) (raiseRecheck ledger) }

/-- The pool's borrowers whose row was written before `updatedBefore`, oldest
first. -/
def usersStale (store : Store) (pool : String) (updatedBefore limit : Nat) : List TrackedUser :=
  let stale := store.users.rows.filter fun user => user.pool = pool ∧ user.updatedLedger < updatedBefore
  (stale.insertionSort fun a b => a.updatedLedger ≤ b.updatedLedger).take limit

def upsertAuction (store : Store) (auction : TrackedAuction) : Store :=
  { store with auctions := store.auctions.upsert replaceAuction auction }

def deleteAuction (store : Store) (pool account : String) (auctionType : AuctionType) : Store :=
  { store with auctions := store.auctions.delete (pool, account, auctionType) }

def auction (store : Store) (pool account : String) (auctionType : AuctionType) : Option TrackedAuction :=
  store.auctions.find (pool, account, auctionType)

/-! ## The ledgers of the rows after a statement -/

section ComputedAt

variable {store : Store} {p a pool account : String}

theorem computedAt_upsertUser {user : TrackedUser} : (store.upsertUser user).computedAt p a =
    if (p, a) = (user.pool, user.account) then some user.updatedLedger else store.computedAt p a := by
  unfold computedAt Store.user upsertUser
  split
  · next h =>
    rw [h]
    refine (congrArg (Option.map _) find_upsert_self).trans ?_
    split <;> rfl
  · next h =>
    exact congrArg _ (find_upsert_of_ne h)

theorem computedAt_deleteUser : (store.deleteUser pool account).computedAt p a =
    if (p, a) = (pool, account) then none else store.computedAt p a := by
  unfold computedAt Store.user deleteUser
  split
  · next h => rw [h, find_delete_self]; rfl
  · next h => rw [find_delete_of_ne h]

@[simp] theorem computedAt_flagRecheck {ledger : Nat} :
    (store.flagRecheck pool account ledger).computedAt p a = store.computedAt p a := by
  unfold computedAt Store.user flagRecheck
  rw [find_update, Option.map_map]
  congr 1
  funext row
  show (if row.key = (pool, account) then (raiseRecheck ledger).apply row else row).updatedLedger = _
  split <;> rfl

end ComputedAt

end Store

end BlendLiquidator
