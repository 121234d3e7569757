/-
A start (`service.rs`): what is checked before anything runs, and who signs
with which key once it does.

Each check is a program over the chain's answers; a snapshot is one call, as
where a batch is decided. What a check says is kept with the pools in the order
the configuration has them. A queue's handle is the place of its worker among
those spawned.
-/
import BlendLiquidator.AuctioneerLoop
import BlendLiquidator.Config

namespace BlendLiquidator

open Calls

/-! ## Checking the pools -/

/-- A call of a start's checks. -/
inductive StartCall
  | snapshot (pool : String) (users : List String)
  | account (address : String)
  | balance (pool token account : String)
  deriving DecidableEq

abbrev StartCall.Answer : StartCall → Type
  | .snapshot _ _ => Except ChainError FullSnapshot
  | .account _ => Except ChainError Unit
  | .balance _ _ _ => Except ChainError Int

abbrev Starting (α : Type) := Proc StartCall StartCall.Answer LiquidatorError α

structure PoolValidation where
  pool : String
  reserves : Nat
  backstop : String
  deriving DecidableEq

/-- The primary asset is a reserve the pool can hold as collateral. -/
def validatePrimaryAsset (pool asset : String) (snapshot : FullSnapshot) : Except LiquidatorError Unit :=
  match snapshot.assetIndex[asset]?.bind fun index => snapshot.reserves[index]? with
  | none => .error (.config ("pool " ++ pool ++ ": primary asset " ++ asset ++ " is not a reserve"))
  | some reserve =>
    if !reserve.config.enabled then
      .error (.config ("pool " ++ pool ++ ": primary asset " ++ asset ++ " is disabled"))
    else if reserve.config.cFactor = 0 then
      .error (.config ("pool " ++ pool ++ ": primary asset " ++ asset ++ " has no collateral factor"))
    else
      .ok ()

/-- Every asset that is named is one of the pool's. -/
def validateSupportedAssets (pool : String) (assets : List String) (snapshot : FullSnapshot) : Except LiquidatorError Unit :=
  assets.forM fun asset =>
    if asset ≠ "*" ∧ ¬snapshot.assetIndex.contains asset then
      .error (.config ("pool " ++ pool ++ ": supported asset " ++ asset ++ " is not a reserve"))
    else
      .ok ()

/-- How a status reads. -/
def PoolStatus.name : PoolStatus → String
  | .adminActive => "AdminActive"
  | .active => "Active"
  | .adminOnIce => "AdminOnIce"
  | .onIce => "OnIce"
  | .adminFrozen => "AdminFrozen"
  | .frozen => "Frozen"
  | .setup => "Setup"

/-- What the checks have found so far. -/
structure Validated where
  validations : List PoolValidation := []
  warnings : List String := []
  /-- The first pool, and its backstop. -/
  sharedBackstop : Option (String × String) := none

/-- What a pool is followed in spite of. -/
def poolWarnings (pool : String) (snapshot : FullSnapshot) : List String :=
  let status := snapshot.poolInstance.config.status
  (if status ≠ .active ∧ status ≠ .adminActive then
    ["pool " ++ pool ++ ": status is " ++ status.name ++ ", not active"] else []) ++
  (snapshot.reserves.toList.filter fun entry => !(snapshot.prices.price entry.2.asset).isOk).map fun entry =>
    "pool " ++ pool ++ ": the oracle has no price for " ++ entry.2.asset

/-- A pool's backstop is the first pool's. -/
def sameBackstop (pool backstop : String) : Option (String × String) → Except LiquidatorError (String × String)
  | none => .ok (pool, backstop)
  | some (firstPool, firstBackstop) =>
    if firstBackstop ≠ backstop then
      .error (.config ("pool " ++ firstPool ++ " reports backstop " ++ firstBackstop ++ ", but pool " ++ pool ++
        " reports backstop " ++ backstop ++ ": a filler's position is shared across every pool it follows, so they " ++
        "cannot use two backstops"))
    else
      .ok (firstPool, firstBackstop)

/-- One pool against its snapshot. -/
def validatePool (v : Validated) (pool : PoolConfig) (snapshot : FullSnapshot) : Except LiquidatorError Validated := do
  let shared ← sameBackstop pool.address snapshot.poolInstance.backstop v.sharedBackstop
  validatePrimaryAsset pool.address pool.primaryAsset snapshot
  validateSupportedAssets pool.address pool.supportedBid snapshot
  validateSupportedAssets pool.address pool.supportedLot snapshot
  -- An auction names at least one bid and one lot.
  if snapshot.poolInstance.config.maxPositions < 2 then
    throw (.config ("pool " ++ pool.address ++ ": max_positions is " ++ toString snapshot.poolInstance.config.maxPositions ++
      ", but an auction names at least one bid and one lot, so no auction could ever be created for it"))
  pure {
    validations := v.validations ++ [⟨pool.address, snapshot.reserves.size, snapshot.poolInstance.backstop⟩]
    warnings := v.warnings ++ poolWarnings pool.address snapshot
    sharedBackstop := some shared }

/-- `validate`, from what the pools before found on. -/
def validatePools (v : Validated) : List PoolConfig → Starting Validated
  | [] => pure v
  | pool :: pools => do
    let snapshot ← Proc.lift ((← Proc.call (StartCall.snapshot pool.address [])).mapError .chain)
    let v ← Proc.lift (validatePool v pool snapshot)
    validatePools v pools

def validate (pools : List PoolConfig) : Starting (List PoolValidation × List String) := do
  let v ← validatePools {} pools
  pure (v.validations, v.warnings)

/-! ## Keys -/

/-- What signs, as a run shares it. -/
structure SigningContext where
  signers : Signers
  ownAddresses : BTreeSet String
  nativeAsset : String

/-- `SigningContext::from_config`, with the native asset's contract of the
network. -/
def SigningContext.fromConfig (nativeAssetContract : Except ChainError String) (keys : SigningKeys) :
    Except LiquidatorError SigningContext := do
  let nativeAsset ← nativeAssetContract.mapError .chain
  pure { signers := keys.intoSigners, ownAddresses := keys.ownAddresses, nativeAsset }

/-! ## Checking the filler -/

/-- How much of `asset` the filler holds as collateral, at the rate read. -/
def fillerPrimaryCollateral (snapshot : FullSnapshot) (filler asset : String) : Except MathError Int :=
  match snapshot.assetIndex[asset]? with
  | none => .ok 0
  | some index =>
    match snapshot.reserves[index]? with
    | none => .ok 0
    | some reserve =>
      reserve.toAssetFromBToken (((snapshot.positions[filler]?.bind fun positions => positions.collateral[index]?)).getD 0)

/-- A pool whose floor the filler does not reach, or may not. -/
def collateralWarning (display : MathError → String) (pool : PoolConfig) (held : Except MathError Int) : List String :=
  match held with
  | .ok held =>
    if held < pool.minPrimaryCollateral then
      ["pool " ++ pool.address ++ ": the filler holds " ++ toString held ++ " of its primary asset " ++ pool.primaryAsset ++
        ", " ++ toString (pool.minPrimaryCollateral - held) ++ " short of min_primary_collateral (" ++
        toString pool.minPrimaryCollateral ++ ")"]
    else []
  | .error error =>
    ["pool " ++ pool.address ++ ": the filler's primary collateral could not be valued: " ++ display error]

/-- The filler's collateral in every pool, one snapshot each. -/
def collateralWarnings (display : MathError → String) (filler : String) : List PoolConfig → Starting (List String)
  | [] => pure []
  | pool :: pools => do
    let snapshot ← Proc.lift ((← Proc.call (StartCall.snapshot pool.address [filler])).mapError .chain)
    let more ← collateralWarnings display filler pools
    pure (collateralWarning display pool (fillerPrimaryCollateral snapshot filler pool.primaryAsset) ++ more)

/-- What stops an armed start is a warning to a dry run. -/
def refuseOrWarn (armed : Bool) (message : String) : Except LiquidatorError (List String) :=
  if armed then .error (.config message) else .ok [message]

def noFillerKey : String :=
  "no FILLER_SECRET_KEY: the filler plans against an empty inventory and simulates nothing"

def noFillerAccount (address : String) : String :=
  "the filler account " ++ address ++ " does not exist on this network: it must be funded before it can sign, hold " ++
    "collateral or pay a fee"

def belowReserve (address : String) (held : Int) (reserve : Nat) : String :=
  "the filler account " ++ address ++ " holds " ++ toString held ++ " stroops of the native asset, below the " ++
    toString reserve ++ " stroops XLM_FEE_RESERVE asks for (XLM_FEE_RESERVE is set in decimal XLM, i.e. " ++
    "XLM_FEE_RESERVE × 10^7 stroops): it could not pay for the fills it plans"

/-- The wallet covers the reserve, or says by how much it does not. -/
def reserveWarnings (armed : Bool) (address : String) (held : Int) (reserve : Nat) : Except LiquidatorError (List String) :=
  if held < reserve then refuseOrWarn armed (belowReserve address held reserve) else .ok []

/-- `validate_filler`. -/
def validateFiller (display : MathError → String) (config : ServiceConfig) (signing : SigningContext) :
    Starting (List String) :=
  match signing.signers.filler with
  | none => pure [noFillerKey]
  | some shared => do
    let address := shared.signer.address
    let armed := !config.dryRun
    match ← Proc.call (StartCall.account address) with
    | .error (.noAccount _) => Proc.lift (refuseOrWarn armed (noFillerAccount address))
    | .error error => Proc.fail (.chain error)
    | .ok _ =>
      match config.pools with
      | [] => pure []
      | anyPool :: _ => do
        let held ← Proc.lift ((← Proc.call (StartCall.balance anyPool.address signing.nativeAsset address)).mapError .chain)
        let warnings ← Proc.lift (reserveWarnings armed address held config.xlmFeeReserve)
        -- A dry run fills nothing, so its collateral is not read.
        if !armed then
          pure warnings
        else do
          let more ← collateralWarnings display address config.pools
          pure (warnings ++ more)

/-- The checks of a start, in their order: what signs, the pools as they were
found, and every warning. -/
def startChecks (display : MathError → String) (config : ServiceConfig) (nativeAssetContract : Except ChainError String)
    (keys : SigningKeys) : Starting (SigningContext × List PoolValidation × List String) := do
  let (validations, warnings) ← validate config.pools
  let signing ← Proc.lift (SigningContext.fromConfig nativeAssetContract keys)
  let more ← validateFiller display config signing
  pure (signing, validations, warnings ++ more)

/-! ## The queues -/

/-- The handle each role submits through. -/
structure Queues where
  auctioneer : Option Nat
  filler : Option Nat

/-- One worker more, and its queue's handle. -/
def spawnQueueWorker (workers : List SharedSigner) (signer : SharedSigner) : List SharedSigner × Nat :=
  (workers ++ [signer], workers.length)

/-- A worker for a role's key, if it has one. -/
def spawnFor (workers : List SharedSigner) : Option SharedSigner → List SharedSigner × Option Nat
  | none => (workers, none)
  | some signer => ((spawnQueueWorker workers signer).1, some (spawnQueueWorker workers signer).2)

/-- One worker per distinct key when armed, and each role's queue. -/
def spawnQueues (signing : SigningContext) (dryRun : Bool) : List SharedSigner × Queues :=
  if dryRun then
    ([], ⟨none, none⟩)
  else if signing.signers.auctioneer.isNone ∧ signing.signers.filler.isNone then
    ([], ⟨none, none⟩)
  else
    let (workers, filler) := spawnFor [] signing.signers.filler
    if signing.signers.shared then
      (workers, ⟨filler, filler⟩)
    else
      let (workers, auctioneer) := spawnFor workers signing.signers.auctioneer
      (workers, ⟨auctioneer, filler⟩)

/-! ## The auctioneer's task -/

/-- `auctioneer_cadence_from`, with the phases drawn. -/
def ServiceConfig.auctioneerCadence (config : ServiceConfig) (oraclePhase fullPhase : Nat) : AuctioneerCadence where
  refreshBatch := config.refreshBatch
  oracleScanLedgers := config.oracleScanLedgers
  oraclePhase := oraclePhase
  fullScanLedgers := config.fullScanLedgers
  fullPhase := fullPhase
  scanHealthFactor := config.scanHealthFactor
  priceDeltaBps := config.priceDeltaBps
  startupDelayLedgers := config.startupDelayLedgers

/-- `auctioneer_config_from`. -/
def ServiceConfig.auctioneerConfig (config : ServiceConfig) (signing : SigningContext) : AuctioneerConfig where
  liquidationHealthFactor := config.liquidationHealthFactor
  targetHealthFactor := config.targetHealthFactor
  ownAddresses := signing.ownAddresses

/-- The task `spawn_auctioneer` runs. -/
def ServiceConfig.auctioneerTask (config : ServiceConfig) (signing : SigningContext) (xdr : XdrLibrary)
    (display : ChainError → String) (oraclePhase fullPhase : Nat) : AuctioneerTask where
  pools := config.pools.map (·.address)
  auctioneer := {
    xdr
    submitter := signing.signers.auctioneer.isSome
    dryRun := config.dryRun
    planIterations := config.planIterations }
  config := config.auctioneerConfig signing
  cadence := config.auctioneerCadence oraclePhase fullPhase
  submissionQueue := (spawnQueues signing config.dryRun).2.auctioneer.isSome
  display := display

end BlendLiquidator
