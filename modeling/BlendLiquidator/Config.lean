/-
The configuration (`config.rs`): the value parsers of the knobs, the pools file,
the service's configuration and the signing keys.

`clap` fills `Args` and has each knob checked by its own parser, so `Args`
carries what those parsers promise. TOML, HTTP header names, secret keys and
files are a `ConfigLibrary`'s.
-/
import BlendLiquidator.Decide
import BlendLiquidator.Decimal7
import BlendLiquidator.Filler

namespace BlendLiquidator

open Results

/-- `LiquidatorError`, as far as a start goes. -/
inductive LiquidatorError
  | config (message : String)
  | chain (error : ChainError)
  | store (error : StoreError)

/-! ## Value parsers -/

inductive NetworkName
  | mainnet
  | testnet
  deriving Repr, DecidableEq

def NetworkName.passphrase : NetworkName → String
  | .mainnet => "Public Global Stellar Network ; September 2015"
  | .testnet => "Test SDF Network ; September 2015"

/-- The bottom of the pool contract's post-liquidation band, 7 decimals. -/
def TARGET_HF_MIN : Int := 10300000

/-- The top of it, left out. -/
def TARGET_HF_MAX : Int := 11500000

/-- A 7-decimal knob within its own bounds. -/
def boundedKnob (accepts : Int → Bool) (refusal : String) (text : String) : Except String Decimal7 := do
  let value ← Decimal7.fromStr text
  if accepts value.get then pure value else throw ("`" ++ text ++ refusal)

/-- `TARGET_HF`, refused outside the band this bot plans within. -/
def targetHealthFactor : String → Except String Decimal7 :=
  boundedKnob (fun value => !(decide (value < TARGET_HF_MIN) || decide (value ≥ TARGET_HF_MAX)))
    ("` is outside the band this bot plans within: TARGET_HF must be at least 1.03 and below 1.15. " ++
      "The contract itself accepts exactly 1.15 — its own check is strict — but aiming there leaves no " ++
      "room for the drift between planning and fill, so the upper bound is this bot's margin and the " ++
      "lower one is the contract's")

/-- `HF_SAFETY_MULTIPLIER`, of at least one. -/
def healthMultiplier : String → Except String Decimal7 :=
  boundedKnob (fun value => !decide (value < SCALAR_7))
    ("` is under 1: HF_SAFETY_MULTIPLIER scales the pool's own min_health_factor, and under one the " ++
      "filler's floor would sit below it")

/-- An amount in an asset's own decimals. -/
def amountFromStr (text field : String) : Except String Int :=
  match parseI128 text with
  | some amount => .ok amount
  | none => .error (field ++ ": `" ++ text ++ "` is not an integer amount")

/-! ## The pools file -/

/-- One `[[pools]]` table, as TOML gives it. -/
structure RawPool where
  address : String
  primaryAsset : String
  minPrimaryCollateral : String
  minHealthFactor : Decimal7
  defaultProfitBps : Nat
  forceFill : Bool := false
  fillObjective : Option String := none
  supportedBid : List String
  supportedLot : List String
  profits : List ProfitRule := []

/-- The contract's own post-submit health minimum, 7 decimals. -/
def CONTRACT_MIN_HEALTH : Int := 10000100

/-- The objective a pool names, the free fill by default. -/
def FillObjective.named (address : String) : Option String → Except LiquidatorError FillObjective
  | none => .ok .freeFill
  | some name =>
    if name = "free-fill" then .ok .freeFill
    else if name = "earliest-profitable" then .ok .earliestProfitable
    else .error (.config ("pools file: pool " ++ address ++ ": `" ++ name ++ "` is not a fill_objective: it is " ++
      "`free-fill` (the default, which waits for the ledger the bid is gone) or `earliest-profitable` (which " ++
      "fills as soon as the lot covers the bid plus the pool's margin)"))

/-- One pool of the file, past the check for a duplicate. -/
def RawPool.checked (pool : RawPool) : Except LiquidatorError PoolConfig := do
  let minPrimaryCollateral ← (amountFromStr pool.minPrimaryCollateral "min_primary_collateral").mapError .config
  if minPrimaryCollateral < 0 then
    throw (.config "pools file: min_primary_collateral must not be negative")
  if pool.minHealthFactor.get ≤ CONTRACT_MIN_HEALTH then
    throw (.config ("pools file: pool " ++ pool.address ++ ": min_health_factor is at or under the contract's own " ++
      "post-submit minimum (1.00001), so the filler would plan fills the contract refuses as InvalidHf"))
  let fillObjective ← FillObjective.named pool.address pool.fillObjective
  pure {
    address := pool.address
    primaryAsset := pool.primaryAsset
    minPrimaryCollateral
    minHealthFactor := pool.minHealthFactor.get
    defaultProfitBps := pool.defaultProfitBps
    forceFill := pool.forceFill
    fillObjective
    supportedBid := pool.supportedBid
    supportedLot := pool.supportedLot
    profits := pool.profits }

/-- One turn of `parse_pools`' loop: the addresses seen and the pools taken. -/
def addPool (taken : BTreeSet String × List PoolConfig) (pool : RawPool) :
    Except LiquidatorError (BTreeSet String × List PoolConfig) := do
  if pool.address ∈ taken.1 then
    throw (.config ("pools file: duplicate pool " ++ pool.address))
  let checked ← pool.checked
  pure (taken.1.insert pool.address, taken.2 ++ [checked])

/-- A signing key, by the account it controls. -/
structure Signer where
  address : String
  deriving DecidableEq

/-- What the configuration leaves to others. -/
structure ConfigLibrary where
  /-- `toml::from_str`, of the pools file. -/
  toml : String → Except String (List RawPool)
  /-- `HeaderName::from_bytes`. -/
  headerName : String → Bool
  readToString : String → Except String String
  fromSecret : String → Except ChainError Signer
  display : ChainError → String

namespace ConfigLibrary

variable (lib : ConfigLibrary)

def parsePools (text : String) : Except LiquidatorError (List PoolConfig) := do
  let raw ← (lib.toml text).mapError fun error => .config ("pools file: " ++ error)
  if raw.isEmpty then
    throw (.config "pools file: at least one pool (a [[pools]] table) is required")
  let taken ← raw.foldlM addPool (∅, [])
  pure taken.2

end ConfigLibrary

/-! ## The service's configuration -/

inductive RunMode
  | loop
  | checkConfig
  deriving Repr, DecidableEq

structure ChainConfig where
  networkPassphrase : String
  rpcUrl : String
  rpcApiKey : Option (String × String)
  baseFee : Nat
  highFee : Nat
  txPollLedgers : Nat

structure HttpConfig where
  addr : String
  port : Nat
  maxLagLedgers : Nat

structure TelegramConfig where
  token : String
  chatId : String

structure SeedConfig where
  url : Option String
  healthFactorMax : Int
  file : Option String

/-- The command line and the environment, each knob past its own parser. -/
structure Args where
  dryRun : Bool
  networkPassphrase : Option String
  network : Option NetworkName
  rpcUrl : Option String
  rpcApiKeyHeader : Option String
  baseFee : Nat
  highFee : Nat
  txPollLedgers : Nat
  poolsFile : Option String
  poolsToml : Option String
  runMode : RunMode
  databaseMaxConnections : Nat
  pollIntervalMs : Nat
  userRefreshLedgers : Nat
  refreshBatch : Nat
  fullScanLedgers : Nat
  scanHfThreshold : Decimal7
  liqHfThreshold : Decimal7
  targetHf : Decimal7
  oracleScanLedgers : Nat
  priceDeltaBps : Nat
  planIterations : Nat
  startupDelayLedgers : Nat
  hfSafetyMultiplier : Decimal7
  replanLedgers : Nat
  replanNearLedgers : Nat
  xlmFeeReserve : Decimal7
  highFeeProfitThreshold : Decimal7
  inventoryRefreshSecs : Nat
  failureNotificationCooldownHours : Nat
  port : Option Nat
  httpPort : Option Nat
  httpBindAddr : String
  healthMaxLagLedgers : Nat
  telegramChatId : Option String
  seedUrl : String
  seedHfMax : Decimal7
  seedFile : Option String

/-- A knob that some text parses to. -/
def Parses (parser : String → Except String Decimal7) (knob : Decimal7) : Prop := ∃ text, parser text = .ok knob

/-- What the knobs' own parsers promise: each 7-decimal knob was written down,
and every count is in its range. -/
structure Args.Parsed (args : Args) : Prop where
  txPollLedgers : 1 ≤ args.txPollLedgers ∧ args.txPollLedgers ≤ 100000
  databaseMaxConnections : 1 ≤ args.databaseMaxConnections ∧ args.databaseMaxConnections ≤ 100
  pollIntervalMs : 100 ≤ args.pollIntervalMs ∧ args.pollIntervalMs ≤ 60000
  refreshBatch : 1 ≤ args.refreshBatch ∧ args.refreshBatch ≤ 1000
  fullScanLedgers : 1 ≤ args.fullScanLedgers
  scanHfThreshold : Parses Decimal7.fromStr args.scanHfThreshold
  liqHfThreshold : Parses Decimal7.fromStr args.liqHfThreshold
  targetHf : Parses BlendLiquidator.targetHealthFactor args.targetHf
  oracleScanLedgers : 1 ≤ args.oracleScanLedgers
  priceDeltaBps : 1 ≤ args.priceDeltaBps
  planIterations : 1 ≤ args.planIterations
  hfSafetyMultiplier : Parses BlendLiquidator.healthMultiplier args.hfSafetyMultiplier
  replanLedgers : 1 ≤ args.replanLedgers
  xlmFeeReserve : Parses Decimal7.fromStr args.xlmFeeReserve
  highFeeProfitThreshold : Parses Decimal7.fromStr args.highFeeProfitThreshold
  inventoryRefreshSecs : 1 ≤ args.inventoryRefreshSecs
  failureNotificationCooldownHours : 1 ≤ args.failureNotificationCooldownHours ∧
    args.failureNotificationCooldownHours ≤ (2 ^ 64 - 1) / 3600
  healthMaxLagLedgers : 1 ≤ args.healthMaxLagLedgers

/-- Everything the service needs, validated. Durations are in milliseconds. -/
structure ServiceConfig where
  chain : ChainConfig
  databaseUrl : String
  databaseMaxConnections : Nat
  pools : List PoolConfig
  runMode : RunMode
  dryRun : Bool
  pollInterval : Nat
  userRefreshLedgers : Nat
  refreshBatch : Nat
  fullScanLedgers : Nat
  scanHealthFactor : Int
  liquidationHealthFactor : Int
  targetHealthFactor : Int
  oracleScanLedgers : Nat
  priceDeltaBps : Nat
  planIterations : Nat
  startupDelayLedgers : Nat
  seed : SeedConfig
  hfSafetyMultiplier : Int
  replanLedgers : Nat
  replanNearLedgers : Nat
  xlmFeeReserve : Nat
  highFeeProfitThreshold : Int
  inventoryRefresh : Nat
  notificationCooldown : Nat
  http : Option HttpConfig
  telegram : Option TelegramConfig

/-- An empty value counts as absent. -/
def nonEmpty (value : Option String) : Option String := value.filter fun text => !text.isEmpty

/-- A setting there is no default for. -/
def required {α : Type} (value : Option α) (refusal : String) : Except LiquidatorError α :=
  match value with
  | some value => .ok value
  | none => .error (.config refusal)

/-- Two settings that come together or not at all. -/
def bothOrNeither {α : Type} (first second : String) : Option String → Option String → (String → String → α) →
    Except LiquidatorError (Option α)
  | some a, some b, both => .ok (some (both a b))
  | none, none, _ => .ok none
  | some _, none, _ => .error (.config (first ++ " is set but " ++ second ++ " is not"))
  | none, some _, _ => .error (.config (second ++ " is set but " ++ first ++ " is not"))

def u64Max : Nat := 2 ^ 64 - 1

namespace Args

variable (args : Args) (lib : ConfigLibrary)

def chainWithSecret (rpcApiKey : Option String) : Except LiquidatorError ChainConfig := do
  let networkPassphrase ← required (args.networkPassphrase.or (args.network.map NetworkName.passphrase))
    "NETWORK_PASSPHRASE or NETWORK is required"
  let rpcUrl ← required args.rpcUrl "RPC_URL is required"
  let header := nonEmpty args.rpcApiKeyHeader
  if header.any fun name => !lib.headerName name then
    throw (.config "RPC_API_KEY_HEADER is not a valid header name")
  let rpcApiKey ← bothOrNeither "RPC_API_KEY_HEADER" "RPC_API_KEY" header (nonEmpty rpcApiKey) fun header key => (header, key)
  pure {
    networkPassphrase
    rpcUrl
    rpcApiKey
    baseFee := args.baseFee
    highFee := args.highFee
    txPollLedgers := args.txPollLedgers }

/-- The pools, from the one source that names them. -/
def pools : Except LiquidatorError (List PoolConfig) :=
  match args.poolsFile, args.poolsToml with
  | some path, none => do
    let text ← (lib.readToString path).mapError fun error => .config ("pools file " ++ path ++ ": " ++ error)
    lib.parsePools text
  | none, some text => lib.parsePools text
  | _, _ => .error (.config "one of POOLS_FILE or POOLS_TOML is required")

/-- `service_with_secrets`. -/
def serviceWithSecrets (databaseUrl rpcApiKey telegramBotToken : Option String) : Except LiquidatorError ServiceConfig := do
  let telegram ← bothOrNeither "TELEGRAM_CHAT_ID" "TELEGRAM_BOT_TOKEN" (nonEmpty args.telegramChatId)
    (nonEmpty telegramBotToken) fun chatId token => { token, chatId : TelegramConfig }
  let chain ← args.chainWithSecret lib rpcApiKey
  let databaseUrl ← required databaseUrl "DATABASE_URL is required"
  let pools ← args.pools lib
  -- The scan flags strictly below its threshold, and deciding acts at its own.
  if args.liqHfThreshold.get ≥ args.scanHfThreshold.get then
    throw (.config ("LIQ_HF_THRESHOLD is at or above SCAN_HF_THRESHOLD: the full scan only flags borrowers strictly " ++
      "below SCAN_HF_THRESHOLD, so a liquidation threshold at or above it names borrowers nothing ever flags for a " ++
      "decision"))
  let http := (args.port.or args.httpPort).map fun port =>
    { addr := args.httpBindAddr, port, maxLagLedgers := args.healthMaxLagLedgers : HttpConfig }
  let reserve := args.xlmFeeReserve.get
  if reserve < 0 ∨ u64Max < reserve then
    throw (.config "XLM_FEE_RESERVE is larger than any wallet can hold")
  pure {
    chain
    databaseUrl
    databaseMaxConnections := args.databaseMaxConnections
    pools
    runMode := args.runMode
    dryRun := args.dryRun
    pollInterval := args.pollIntervalMs
    userRefreshLedgers := args.userRefreshLedgers
    refreshBatch := args.refreshBatch
    fullScanLedgers := args.fullScanLedgers
    scanHealthFactor := args.scanHfThreshold.get
    liquidationHealthFactor := args.liqHfThreshold.get
    targetHealthFactor := args.targetHf.get
    oracleScanLedgers := args.oracleScanLedgers
    priceDeltaBps := args.priceDeltaBps
    planIterations := args.planIterations
    startupDelayLedgers := args.startupDelayLedgers
    seed := {
      url := (some args.seedUrl).filter fun url => !url.isEmpty
      healthFactorMax := args.seedHfMax.get
      file := args.seedFile }
    hfSafetyMultiplier := args.hfSafetyMultiplier.get
    replanLedgers := args.replanLedgers
    replanNearLedgers := args.replanNearLedgers
    xlmFeeReserve := reserve.toNat
    highFeeProfitThreshold := args.highFeeProfitThreshold.get
    inventoryRefresh := args.inventoryRefreshSecs * 1000
    notificationCooldown := args.failureNotificationCooldownHours * 3600 * 1000
    http
    telegram }

end Args

/-! ## Signing keys -/

/-- Every signing key the process holds. -/
structure SigningKeys where
  auctioneer : Option Signer
  filler : Option Signer

/-- A shared key: the allocation behind it, and the key. Two of one allocation
are the same key (`Arc::ptr_eq`). -/
structure SharedSigner where
  cell : Nat
  signer : Signer

/-- The two roles' keys. -/
structure Signers where
  auctioneer : Option SharedSigner
  filler : Option SharedSigner

namespace ConfigLibrary

/-- One optional secret, its variable named in the error. -/
def parseSigningKey (lib : ConfigLibrary) (name : String) : Option String → Except LiquidatorError (Option Signer)
  | none => .ok none
  | some secret => ((lib.fromSecret secret).map some).mapError fun error => .config (name ++ ": " ++ lib.display error)

end ConfigLibrary

/-- `signing_keys`. -/
def Args.signingKeys (args : Args) (lib : ConfigLibrary) (filler auctioneer : Option String) :
    Except LiquidatorError SigningKeys := do
  let auctioneer ← lib.parseSigningKey "AUCTIONEER_SECRET_KEY" auctioneer
  let filler ← lib.parseSigningKey "FILLER_SECRET_KEY" filler
  match auctioneer, filler with
  | some a, some f =>
    if a.address = f.address then
      throw (.config ("AUCTIONEER_SECRET_KEY and FILLER_SECRET_KEY are the same key: leave AUCTIONEER_SECRET_KEY unset " ++
        "and the auctioneer signs with the filler's key, through the one queue that key needs"))
  | _, _ => pure ()
  if !args.dryRun && filler.isNone then
    throw (.config ("DRY_RUN=false needs FILLER_SECRET_KEY: live trading fills auctions, and the filler signs with its " ++
      "own key only"))
  pure { auctioneer, filler }

namespace SigningKeys

variable (keys : SigningKeys)

/-- Every address the bot holds a key for. -/
def ownAddresses : BTreeSet String :=
  (keys.auctioneer.toList ++ keys.filler.toList).foldl (fun own signer => own.insert signer.address) ∅

/-- The filler signs with its own key, the auctioneer with its own or else the
filler's. -/
def intoSigners : Signers :=
  let filler := keys.filler.map (SharedSigner.mk 0)
  let auctioneer := (keys.auctioneer.map (SharedSigner.mk 1)).or filler
  { auctioneer, filler }

end SigningKeys

/-- Whether both roles hold the one key. -/
def Signers.shared (signers : Signers) : Bool :=
  match signers.auctioneer, signers.filler with
  | some auctioneer, some filler => auctioneer.cell = filler.cell
  | _, _ => false

end BlendLiquidator
