/-
Pool events and their decoder (`chain/xdr/events.rs`, and what it uses of
`chain/xdr/decode.rs` and `chain/xdr/mod.rs`).

An event the bot does not model decodes to `none`: it may not stall the
poller. A modelled event of an unexpected shape is an error.
-/
import BlendLiquidator.Auction
import BlendLiquidator.Chain

namespace BlendLiquidator

/-- Which auction a key or an event names. -/
inductive AuctionType
  | userLiquidation
  | badDebt
  | interest
  deriving Repr, DecidableEq

/-- The code the contract takes and its events carry. -/
def AuctionType.code : AuctionType → Nat
  | .userLiquidation => 0
  | .badDebt => 1
  | .interest => 2

def AuctionType.tryFrom (value : UInt32) : Except XdrError AuctionType :=
  match value.toNat with
  | 0 => .ok .userLiquidation
  | 1 => .ok .badDebt
  | 2 => .ok .interest
  | other => .error (.shape "auction type 0..=2" (.text (toString other)))

/-- The pool's operating status. -/
inductive PoolStatus
  | adminActive
  | active
  | adminOnIce
  | onIce
  | adminFrozen
  | frozen
  | setup
  deriving Repr, DecidableEq

/-- The discriminant the pool's events carry. -/
def PoolStatus.code : PoolStatus → Nat
  | .adminActive => 0
  | .active => 1
  | .adminOnIce => 2
  | .onIce => 3
  | .adminFrozen => 4
  | .frozen => 5
  | .setup => 6

def PoolStatus.tryFrom (value : UInt32) : Except XdrError PoolStatus :=
  match value.toNat with
  | 0 => .ok .adminActive
  | 1 => .ok .active
  | 2 => .ok .adminOnIce
  | 3 => .ok .onIce
  | 4 => .ok .adminFrozen
  | 5 => .ok .frozen
  | 6 => .ok .setup
  | other => .error (.shape "pool status 0..=6" (.text (toString other)))

/-- A pool event the bot acts on. -/
inductive PoolEvent
  | supply (asset sender : String) (amount bTokens : Int)
  | withdraw (asset sender : String) (amount bTokens : Int)
  | supplyCollateral (asset sender : String) (amount bTokens : Int)
  | withdrawCollateral (asset sender : String) (amount bTokens : Int)
  | borrow (asset sender : String) (amount dTokens : Int)
  | repay (asset sender : String) (amount dTokens : Int)
  | flashLoan (asset sender contract : String) (amount dTokens : Int)
  | newAuction (auctionType : AuctionType) (user : String) (percent : UInt32) (auction : AuctionData)
  | fillAuction (auctionType : AuctionType) (user filler : String) (fillPercent : Int) (filled : AuctionData)
  | deleteAuction (auctionType : AuctionType) (user : String)
  | badDebt (user asset : String) (dTokens : Int)
  | defaultedDebt (asset : String) (dTokens : Int)
  | debtSetoff (asset : String) (bTokensBurned dTokensRepaid : Int)
  | collateralOrphaned (user asset : String) (bTokens : Int)
  | orphanSettled (asset : String) (bTokens : Int)
  | setReserve (asset : String) (index : UInt32)
  | setStatus (status : PoolStatus)

/-- The accounts whose positions the event may have changed. -/
def PoolEvent.affectedAccounts : PoolEvent → List String
  | .supply _ sender _ _ | .withdraw _ sender _ _ | .supplyCollateral _ sender _ _
  | .withdrawCollateral _ sender _ _ | .borrow _ sender _ _ | .repay _ sender _ _
  | .flashLoan _ sender _ _ _ => [sender]
  | .newAuction _ user _ _ | .deleteAuction _ user | .collateralOrphaned user _ _
  | .badDebt user _ _ => [user]
  | .fillAuction _ user filler _ _ => [user, filler]
  | .defaultedDebt _ _ | .debtSetoff _ _ _ | .orphanSettled _ _ | .setReserve _ _
  | .setStatus _ => []

/-! ## Reading a value -/

def asAddress : ScVal → Except XdrError String
  | .address strkey => .ok strkey
  | other => .error (.shape "address" (.value other))

def asU32 : ScVal → Except XdrError UInt32
  | .u32 number => .ok number
  | other => .error (.shape "u32" (.value other))

def asAmount : ScVal → Except XdrError Int
  | .i128 hi lo => .ok (asI128 hi lo)
  | other => .error (.shape "i128" (.value other))

/-- The fields of a contract struct; of two with one name the later holds. -/
def structFields : ScVal → Except XdrError (BTreeMap String ScVal)
  | .map entries => entries.toList.foldlM (fun map (key, val) => match key with
    | .symbol name => .ok (map.insert name val)
    | other => .error (.shape "symbol key" (.value other))) ∅
  | other => .error (.shape "struct map" (.value other))

def field (fields : BTreeMap String ScVal) (name : String) : Except XdrError ScVal :=
  match fields[name]? with
  | some value => .ok value
  | none => .error (.missingField name)

/-- A map of asset address to amount, as `AuctionData` stores each side. -/
def addressMap : ScVal → Except XdrError (BTreeMap String Int)
  | .map entries => entries.toList.foldlM (fun map (key, val) => match key, val with
    | .address asset, .i128 hi lo => .ok (map.insert asset (asI128 hi lo))
    | _, _ => .error (.shape "address to i128 entry" (.entry key val))) ∅
  | other => .error (.shape "address map" (.value other))

def auctionValue (value : ScVal) : Except XdrError AuctionData := do
  let fields ← structFields value
  let bid ← addressMap (← field fields "bid")
  let lot ← addressMap (← field fields "lot")
  let block ← asU32 (← field fields "block")
  pure { bid, lot, block := block.toNat }

/-! ## Reading an event -/

/-- The data vector of an event, required to hold exactly `expected` items. -/
def data (value : ScVal) (expected : Nat) : Except XdrError (Vector ScVal expected) :=
  match value with
  | .vec items =>
    if h : items.toList.length = expected then .ok ⟨items.toList.toArray, by simpa using h⟩
    else .error (.shape "event data vector" (.value (.vec items)))
  | other => .error (.shape "event data vector" (.value other))

def topic (topics : List ScVal) (index : Nat) : Except XdrError ScVal :=
  match topics[index]? with
  | some value => .ok value
  | none => .error (.shape "another topic" (.text (toString topics.length ++ " topics")))

def requireTopics (topics : List ScVal) (expected : Nat) (message : String) : Except XdrError Unit :=
  if topics.length = expected then .ok ()
  else .error (.shape message (.text (toString topics.length ++ " topics")))

/-- Asset, sender, amount and reserve tokens: what the six two-sided position
events share. -/
def twoSided (topics : List ScVal) (value : ScVal) (topicCountMessage : String)
    (event : String → String → Int → Int → PoolEvent) : Except XdrError (Option PoolEvent) := do
  requireTopics topics 3 topicCountMessage
  let asset ← asAddress (← topic topics 1)
  let sender ← asAddress (← topic topics 2)
  let items ← data value 2
  pure (some (event asset sender (← asAmount items[0]) (← asAmount items[1])))

def decodePositionEvent (name : String) (topics : List ScVal) (value : ScVal) :
    Except XdrError (Option PoolEvent) :=
  match name with
  | "supply" => twoSided topics value "supply with 3 topics" .supply
  | "withdraw" => twoSided topics value "withdraw with 3 topics" .withdraw
  | "supply_collateral" => twoSided topics value "supply_collateral with 3 topics" .supplyCollateral
  | "withdraw_collateral" => twoSided topics value "withdraw_collateral with 3 topics" .withdrawCollateral
  | "borrow" => twoSided topics value "borrow with 3 topics" .borrow
  | "repay" => twoSided topics value "repay with 3 topics" .repay
  | "flash_loan" => do
    requireTopics topics 4 "flash_loan with 4 topics"
    let items ← data value 2
    pure (some (.flashLoan (← asAddress (← topic topics 1)) (← asAddress (← topic topics 2))
      (← asAddress (← topic topics 3)) (← asAmount items[0]) (← asAmount items[1])))
  | _ => .ok none

def decodeAuctionEvent (name : String) (topics : List ScVal) (value : ScVal) :
    Except XdrError (Option PoolEvent) :=
  match name with
  | "new_auction" => do
    requireTopics topics 3 "new_auction with 3 topics"
    let items ← data value 2
    pure (some (.newAuction (← AuctionType.tryFrom (← asU32 (← topic topics 1)))
      (← asAddress (← topic topics 2)) (← asU32 items[0]) (← auctionValue items[1])))
  | "fill_auction" => do
    requireTopics topics 3 "fill_auction with 3 topics"
    let items ← data value 3
    pure (some (.fillAuction (← AuctionType.tryFrom (← asU32 (← topic topics 1)))
      (← asAddress (← topic topics 2)) (← asAddress items[0]) (← asAmount items[1])
      (← auctionValue items[2])))
  | "delete_auction" => do
    requireTopics topics 3 "delete_auction with 3 topics"
    match value with
    | .void =>
      pure (some (.deleteAuction (← AuctionType.tryFrom (← asU32 (← topic topics 1)))
        (← asAddress (← topic topics 2))))
    | other => .error (.shape "delete_auction with void data" (.value other))
  | _ => .ok none

def decodeAdminEvent (name : String) (topics : List ScVal) (value : ScVal) :
    Except XdrError (Option PoolEvent) :=
  match name with
  | "bad_debt" => do
    requireTopics topics 3 "bad_debt with 3 topics"
    pure (some (.badDebt (← asAddress (← topic topics 1)) (← asAddress (← topic topics 2))
      (← asAmount value)))
  | "defaulted_debt" => do
    requireTopics topics 2 "defaulted_debt with 2 topics"
    pure (some (.defaultedDebt (← asAddress (← topic topics 1)) (← asAmount value)))
  | "debt_setoff" => do
    requireTopics topics 2 "debt_setoff with 2 topics"
    let items ← data value 2
    pure (some (.debtSetoff (← asAddress (← topic topics 1)) (← asAmount items[0]) (← asAmount items[1])))
  | "collateral_orphaned" => do
    requireTopics topics 3 "collateral_orphaned with 3 topics"
    pure (some (.collateralOrphaned (← asAddress (← topic topics 1)) (← asAddress (← topic topics 2))
      (← asAmount value)))
  | "orphan_settled" => do
    requireTopics topics 2 "orphan_settled with 2 topics"
    pure (some (.orphanSettled (← asAddress (← topic topics 1)) (← asAmount value)))
  | "set_reserve" => do
    requireTopics topics 1 "set_reserve with 1 topic"
    let items ← data value 2
    pure (some (.setReserve (← asAddress items[0]) (← asU32 items[1])))
  | "set_status" => do
    -- one topic from `update_status`, two from the admin's `set_status`
    if topics.length = 1 ∨ topics.length = 2 then
      pure (some (.setStatus (← PoolStatus.tryFrom (← asU32 value))))
    else
      .error (.shape "set_status with 1 or 2 topics" (.text (toString topics.length ++ " topics")))
  | _ => .ok none

/-- `none` when the event is not one the bot models: no topics, a first topic
that is not a symbol, or a name none of the three decoders knows. -/
def decodePoolEvent (topics : List ScVal) (value : ScVal) : Except XdrError (Option PoolEvent) :=
  match topics.head? with
  | some (.symbol name) => do
    match ← decodePositionEvent name topics value with
    | some event => pure (some event)
    | none =>
      match ← decodeAuctionEvent name topics value with
      | some event => pure (some event)
      | none => decodeAdminEvent name topics value
  | _ => .ok none

end BlendLiquidator
