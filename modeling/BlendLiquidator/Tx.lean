/-
The one write path (`chain/tx.rs`): build, simulate, restore, assemble, fee,
sign, send, poll, classify.

The RPC, the two clocks and the shutdown flag are the oracle's: a `Moment`
is what each of them would answer at one point of the run. Signing and
hashing are the XDR and signature libraries', and so parameters of the
`Submitter`. The state a run carries is what an observer of the wire sees of
it (`Act`): where each `prepare` starts, every `sendTransaction` and
`getTransaction` with its answer, and where a wait reached its cap.
-/
import BlendLiquidator.Chain
import BlendLiquidator.Oracle
import BlendLiquidator.Fill

namespace BlendLiquidator

open Oracle

/-- How long after building a transaction the network may still apply it. -/
def TIME_BOUND_SECS : Nat := 300

def i64Max : Int := 2 ^ 63 - 1

/-- The fee and polling policy. The pauses between polls and resends are
moments of the oracle's and have no length here. -/
structure TxConfig where
  baseFee : Nat
  highFee : Nat
  pollLedgers : Nat
  waitCap : Nat

inductive Priority
  | normal
  | high
  deriving Repr, DecidableEq

/-- An operation: the call a submission makes, or a footprint's restore. -/
inductive Operation
  | invokeHostFunction (function : String) (auth : List String)
  | restoreFootprint
  | other (body : String)
  deriving Repr, DecidableEq

/-- A transaction, less the fields every one of the bot's shares. -/
structure Transaction where
  sourceAccount : String
  fee : Nat
  seqNum : Int
  maxTime : Nat
  ledgerBounds : LedgerWindow
  operation : Operation
  sorobanData : Option String
  deriving Repr, DecidableEq

structure TransactionEnvelope where
  tx : Transaction
  signatures : List String
  deriving Repr, DecidableEq

/-- A signed transaction and what the caller needs to track it. -/
structure Prepared where
  envelope : TransactionEnvelope
  hash : TxHash
  sequence : Int
  window : LedgerWindow
  fee : Nat
  resourceFee : Int
  deriving Repr, DecidableEq

/-- How a submitted transaction ended. -/
inductive TxOutcome
  | succeeded (hash : TxHash) (ledger : Nat) (returnValue : Option String)
  | failed (hash : TxHash) (ledger : Nat) (contractError : Option Nat) (result : TransactionResult)
  | expired (hash : TxHash) (window : LedgerWindow) (latestLedger : Nat)
  | unknown (hash : TxHash) (sequence : Int) (window : LedgerWindow)
  deriving Repr, DecidableEq

def TxOutcome.isUnknown : TxOutcome → Bool
  | .unknown _ _ _ => true
  | .succeeded _ _ _ | .failed _ _ _ _ | .expired _ _ _ => false

/-- What the RPC, the clocks and the operator would answer at one moment. -/
structure Moment where
  account : String → Except RpcError Account
  feeStats : Except RpcError FeeStats
  simulate : TransactionEnvelope → Except RpcError Simulation
  send : TransactionEnvelope → Except RpcError SendStatus
  transaction : TxHash → Except RpcError TransactionStatus
  /-- Unix seconds; `none` before 1970. -/
  unixNow : Option Nat
  instant : Nat
  shutdown : Bool

/-- Whose transaction is sent or polled: the submission's own, or the restore
inside its `prepare`. -/
inductive Purpose
  | submission
  | restore
  deriving Repr, DecidableEq

inductive QueueError
  | closed
  | shuttingDown
  | chain (error : ChainError)
  deriving Repr, DecidableEq

/-- What a run shows of itself. -/
inductive Act
  /-- A `prepare` starts: the account's sequence is about to be read. -/
  | prepares
  | sent (purpose : Purpose) (prepared : Prepared) (answer : Except RpcError SendStatus)
  | polled (purpose : Purpose) (hash : TxHash) (window : LedgerWindow)
      (answer : Except RpcError TransactionStatus)
  /-- A wait passed its cap without a terminal answer. -/
  | capped (purpose : Purpose) (hash : TxHash) (window : LedgerWindow)
  /-- A submission's caller got its answer. -/
  | answered (outcome : Except QueueError TxOutcome)
  deriving DecidableEq

/-- A run of the write path. -/
abbrev Run (ε α : Type) := Prog Moment (List Act) ε α

/-- Puts `act` on the record. -/
def note {ε : Type} (act : Act) : Run ε Unit := Prog.modify (· ++ [act])

/-- One RPC call, its failure the caller's. -/
def rpc {α : Type} (method : Moment → Except RpcError α) : Run ChainError α := do
  let answer ← Prog.ask method
  Prog.lift (answer.mapError RpcError.chain)

/-- A pause: it takes a moment. -/
def sleep {ε : Type} : Run ε Unit := Prog.ask fun _ => ()

/-- Builds, signs and submits for one signer on one network. -/
structure Submitter where
  address : String
  config : TxConfig
  /-- `Signer::sign` for the network. -/
  sign : Transaction → Except ChainError TransactionEnvelope
  /-- `TransactionEnvelope::hash` for the network. -/
  hashOf : TransactionEnvelope → Except ChainError TxHash
  /-- The derived `Debug` of an outcome, a result and an optional code. -/
  showOutcome : TxOutcome → String
  showResult : Option TransactionResult → String
  showCode : Option Nat → String
  showHash : TxHash → String

/-- Inclusion plus resource fee, which the transaction carries as one `u32`. -/
def totalFee (inclusion : Nat) (resourceFee : Int) : Except ChainError Nat :=
  if 0 ≤ resourceFee ∧ resourceFee ≤ u32Max ∧ inclusion + resourceFee.toNat ≤ u32Max then
    .ok (inclusion + resourceFee.toNat)
  else
    .error (.shape ("fee " ++ toString inclusion ++ " + " ++ toString resourceFee ++
      " does not fit the transaction's u32"))

/-- `sequence.checked_add(1)`. -/
def nextSequence (sequence : Int) : Except ChainError Int :=
  if sequence + 1 ≤ i64Max then .ok (sequence + 1)
  else .error (.shape "the account sequence overflows i64")

/-- The exclusive ledger bound, `latest_ledger + poll_ledgers + 1`. -/
def maxLedger (latestLedger pollLedgers : Nat) : Except ChainError Nat :=
  if latestLedger + pollLedgers + 1 ≤ u32Max then .ok (latestLedger + pollLedgers + 1)
  else .error (.config "the ledger bound overflows u32")

/-- What a `getTransaction` answer means for a transaction bounded by
`window`: a terminal outcome, or `none` while it may still land. -/
def classify (status : TransactionStatus) (hash : TxHash) (window : LedgerWindow) : Option TxOutcome :=
  match status with
  | .success ledger _ returnValue => some (.succeeded hash ledger returnValue)
  | .failed ledger _ result contractError => some (.failed hash ledger contractError result)
  | .notFound latestLedger oldestLedger =>
    if latestLedger ≥ window.maxLedger ∧ oldestLedger ≤ window.minLedger then
      some (.expired hash window latestLedger)
    else
      none

/-- Whether polling again can plausibly answer where `error` did not. -/
def isTransient : ChainError → Bool
  | .transport _ => true
  | .http status => status == 429 || decide (500 ≤ status ∧ status ≤ 599)
  | _ => false

namespace Submitter

variable (s : Submitter)

/-- p70 floored at `base_fee`, or p90 floored at `high_fee`. -/
def inclusionFee (fees : FeeStats) : Priority → Nat
  | .normal => max fees.sorobanPercentile70 s.config.baseFee
  | .high => max fees.sorobanPercentile90 s.config.highFee

/-- An unsigned transaction with both ledger bounds, and its window. -/
def unsigned (operation : Operation) (sequence : Int) (latestLedger fee : Nat) :
    Run ChainError (Transaction × LedgerWindow) := do
  let now ← Prog.ask Moment.unixNow
  let now ← Prog.lift (now.elim (.error (.config "the system clock is before 1970")) .ok)
  let max ← Prog.lift (maxLedger latestLedger s.config.pollLedgers)
  let window ← Prog.lift (LedgerWindow.tryNew latestLedger max)
  pure ({ sourceAccount := s.address, fee, seqNum := sequence, maxTime := now + TIME_BOUND_SECS
          ledgerBounds := window, operation, sorobanData := none }, window)

/-- What `simulate_call` makes of a simulation's answer. -/
def readSimulation (simulation : Simulation) : Except ChainError (SimulatedCall × Nat) :=
  match simulation.outcome with
  | .success call => .ok (call, simulation.latestLedger)
  | .failure message contractError => .error (.simulation message contractError)

/-- Simulates `operation` as the signer at `sequence`. -/
def simulateCall (operation : Operation) (sequence : Int) (latestLedger : Nat) :
    Run ChainError (SimulatedCall × Nat) := do
  let (tx, _) ← s.unsigned operation sequence latestLedger 100
  let simulation ← rpc fun m => m.simulate { tx, signatures := [] }
  Prog.lift (readSimulation simulation)

/-- Attaches what the simulation produced: the Soroban data, the
authorisation entries when the operation has none, and the total fee. -/
def assemble (tx : Transaction) (call : SimulatedCall) (inclusion : Nat) : Except ChainError Transaction := do
  let fee ← totalFee inclusion call.minResourceFee
  let operation := match tx.operation with
    | .invokeHostFunction function [] => .invokeHostFunction function call.auth
    | operation => operation
  pure { tx with fee, sorobanData := some call.transactionData, operation }

/-- One `sendTransaction`. -/
def sendTransaction (purpose : Purpose) (prepared : Prepared) : Run ChainError SendStatus := do
  let answer ← Prog.ask fun m => m.send prepared.envelope
  note (.sent purpose prepared answer)
  Prog.lift (answer.mapError RpcError.chain)

/-- What `send` makes of a status; `again` is its answer to a full queue. -/
def readSend (prepared : Prepared) (status : SendStatus) (again : Run ChainError Unit) :
    Run ChainError Unit :=
  match status.outcome with
  | .pending | .duplicate =>
    if status.hash = prepared.hash then
      pure ()
    else
      Prog.fail (.shape ("sendTransaction returned hash " ++ s.showHash status.hash ++
        " for envelope hash " ++ s.showHash prepared.hash))
  | .tryAgainLater => again
  | .error (some ⟨_, .txBadSeq⟩) _ => Prog.fail .badSequence
  | .error result contractError =>
    Prog.fail (.rejected (s.showResult result ++ " (contract error " ++ s.showCode contractError ++ ")"))

/-- `sendTransaction`, retrying a `TRY_AGAIN_LATER` once after a pause. -/
def send (purpose : Purpose) (prepared : Prepared) : Run ChainError Unit := do
  let status ← sendTransaction purpose prepared
  s.readSend prepared status do
    sleep
    let status ← sendTransaction purpose prepared
    s.readSend prepared status (Prog.fail (.rejected "TRY_AGAIN_LATER twice"))

/-- One round of `wait_for`'s loop: an outcome, or `none` to poll again. -/
def pollOnce (purpose : Purpose) (hash : TxHash) (sequence : Int) (window : LedgerWindow)
    (deadline : Nat) : Run ChainError (Option TxOutcome) := do
  let answer ← Prog.ask fun m => m.transaction hash
  note (.polled purpose hash window answer)
  match answer.map fun status => classify status hash window with
  | .ok (some outcome) => pure (some outcome)
  | .ok none => untilDeadline
  | .error error =>
    if isTransient error.chain then untilDeadline else pure (some (.unknown hash sequence window))
where
  /-- The cap is checked after a poll that settled nothing. -/
  untilDeadline : Run ChainError (Option TxOutcome) := do
    let now ← Prog.ask Moment.instant
    if now ≥ deadline then
      note (.capped purpose hash window)
      pure (some (.unknown hash sequence window))
    else
      sleep
      pure none

/-- Polls until the outcome is terminal or the wait cap passes. -/
def waitFor (fuel : Nat) (purpose : Purpose) (hash : TxHash) (sequence : Int) (window : LedgerWindow) :
    Run ChainError TxOutcome := do
  let now ← Prog.ask Moment.instant
  Prog.repeatUntil (pollOnce purpose hash sequence window (now + s.config.waitCap)) fuel

/-- What `restore` makes of how its transaction ended. -/
def readRestore (outcome : TxOutcome) : Except ChainError Unit :=
  match outcome with
  | .succeeded _ _ _ => .ok ()
  | .unknown hash sequence window => .error (.restoreUnknown hash sequence window)
  | other => .error (.restore (s.showOutcome other))

/-- Restores the archived entries a simulation reported and waits for it to
land. Only a refusal before the queue propagates as itself; any other
failure of the send leaves the restore unknown. -/
def restore (fuel : Nat) (preamble : RestorePreamble) (sequence : Int) (latestLedger inclusion : Nat) :
    Run ChainError Unit := do
  let fee ← Prog.lift (totalFee inclusion preamble.minResourceFee)
  let (tx, window) ← s.unsigned .restoreFootprint sequence latestLedger fee
  let envelope ← Prog.lift (s.sign { tx with sorobanData := some preamble.transactionData })
  let hash ← Prog.lift (s.hashOf envelope)
  let prepared : Prepared :=
    { envelope, hash, sequence, window, fee, resourceFee := preamble.minResourceFee }
  match ← Prog.caught (s.send .restore prepared) with
  | .ok () => do
    let outcome ← s.waitFor fuel .restore prepared.hash prepared.sequence prepared.window
    Prog.lift (s.readRestore outcome)
  | .error .badSequence => Prog.fail .badSequence
  | .error (.rejected what) => Prog.fail (.rejected what)
  | .error _ => Prog.fail (.restoreUnknown prepared.hash prepared.sequence prepared.window)

/-- The restore `prepare` makes when the simulation asks for one, and the
simulation after it. -/
def restored (fuel : Nat) (operation : Operation) (sequence : Int) (inclusion : Nat)
    (call : SimulatedCall) (latestLedger : Nat) : Run ChainError (SimulatedCall × Nat × Int) :=
  match call.restore with
  | none => pure (call, latestLedger, sequence)
  | some preamble => do
    s.restore fuel preamble sequence latestLedger inclusion
    let sequence ← Prog.lift (nextSequence sequence)
    let (call, latestLedger) ← s.simulateCall operation sequence latestLedger
    if call.restore.isSome then
      Prog.fail (.restore "archived entries remain after a restore")
    else
      pure (call, latestLedger, sequence)

/-- Steps 1 to 6 of the write path. -/
def prepare (fuel : Nat) (operation : Operation) (priority : Priority) : Run ChainError Prepared := do
  note .prepares
  let account ← rpc fun m => m.account s.address
  let fees ← rpc Moment.feeStats
  let inclusion := s.inclusionFee fees priority
  let sequence ← Prog.lift (nextSequence account.sequence)
  let (call, latestLedger) ← s.simulateCall operation sequence account.latestLedger
  let (call, latestLedger, sequence) ← s.restored fuel operation sequence inclusion call latestLedger
  let (tx, window) ← s.unsigned operation sequence latestLedger 0
  let tx ← Prog.lift (assemble tx call inclusion)
  let envelope ← Prog.lift (s.sign tx)
  let hash ← Prog.lift (s.hashOf envelope)
  pure { envelope, hash, sequence, window, fee := tx.fee, resourceFee := call.minResourceFee }

end Submitter

end BlendLiquidator
