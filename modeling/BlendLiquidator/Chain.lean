/-
The chain layer's own types (`chain/mod.rs`, and the answers of
`chain/rpc.rs` the write path reads): errors, hashes, ledger windows, and
what each RPC method answers with once its body is decoded.

An XDR value the bot only carries (a return value, a footprint, an
authorisation entry) is its base64 text. A transport failure is its text.
-/
import BlendLiquidator.Fixed
import BlendLiquidator.ScVal

namespace BlendLiquidator

/-- A transaction hash: 32 bytes. -/
structure TxHash where
  bytes : Vector UInt8 32
  deriving Repr, DecidableEq

/-- The ledgers a transaction may be applied in: `minLedger` inclusive to
`maxLedger` exclusive. A window is never empty or inverted. -/
structure LedgerWindow where
  minLedger : Nat
  maxLedger : Nat
  lt : minLedger < maxLedger
  deriving Repr, DecidableEq

inductive XdrError
  | xdr (what : String)
  | address (text : String)
  | symbol (text : String)
  | shape (expected : String) (got : Got)
  | missingField (field : String)
  | math (error : MathError)
  deriving Repr, DecidableEq

/-- A failure anywhere between the bot and the chain. -/
inductive ChainError
  | transport (what : String)
  | http (status : Nat)
  | rpc (code : Int) (message : String)
  | shape (what : String)
  | ledgerMoved (first second : Nat)
  | noAccount (account : String)
  | xdr (error : XdrError)
  | math (error : MathError)
  | config (what : String)
  | secretKey
  | simulation (message : String) (contractError : Option Nat)
  | restore (what : String)
  | restoreUnknown (hash : TxHash) (sequence : Int) (window : LedgerWindow)
  | rejected (what : String)
  | badSequence
  deriving Repr, DecidableEq

/-- The failures the RPC client itself reports. None of them says what
became of a request that had left. -/
inductive RpcError
  | transport (what : String)
  | http (status : Nat)
  | rpc (code : Int) (message : String)
  | shape (what : String)
  | ledgerMoved (first second : Nat)
  | noAccount (account : String)
  | xdr (error : XdrError)
  | config (what : String)
  deriving Repr, DecidableEq

def RpcError.chain : RpcError → ChainError
  | .transport what => .transport what
  | .http status => .http status
  | .rpc code message => .rpc code message
  | .shape what => .shape what
  | .ledgerMoved first second => .ledgerMoved first second
  | .noAccount account => .noAccount account
  | .xdr error => .xdr error
  | .config what => .config what

/-- A window, or the configuration error an empty one is. -/
def LedgerWindow.tryNew (minLedger maxLedger : Nat) : Except ChainError LedgerWindow :=
  if h : minLedger < maxLedger then .ok ⟨minLedger, maxLedger, h⟩
  else .error (.config "a ledger window needs min_ledger < max_ledger")

/-- The signing account's state that a transaction needs. -/
structure Account where
  sequence : Int
  latestLedger : Nat
  deriving Repr, DecidableEq

/-- The Soroban inclusion-fee percentiles the fee policy reads. -/
structure FeeStats where
  sorobanPercentile70 : Nat
  sorobanPercentile90 : Nat
  deriving Repr, DecidableEq

/-- What a `RestoreFootprint` transaction needs. -/
structure RestorePreamble where
  transactionData : String
  minResourceFee : Int
  deriving Repr, DecidableEq

/-- A simulation that ran to completion. -/
structure SimulatedCall where
  auth : List String
  transactionData : String
  minResourceFee : Int
  restore : Option RestorePreamble
  deriving Repr, DecidableEq

inductive SimulationOutcome
  | success (call : SimulatedCall)
  | failure (message : String) (contractError : Option Nat)
  deriving Repr, DecidableEq

/-- `simulateTransaction`. -/
structure Simulation where
  latestLedger : Nat
  outcome : SimulationOutcome
  deriving Repr, DecidableEq

/-- The result codes `send` tells apart: a bad sequence and all others. -/
inductive TransactionResultResult
  | txBadSeq
  | other (xdr : String)
  deriving Repr, DecidableEq

structure TransactionResult where
  feeCharged : Int
  result : TransactionResultResult
  deriving Repr, DecidableEq

/-- What `sendTransaction` said. -/
inductive SendOutcome
  | pending
  | duplicate
  | tryAgainLater
  | error (result : Option TransactionResult) (contractError : Option Nat)
  deriving Repr, DecidableEq

/-- `sendTransaction`. -/
structure SendStatus where
  hash : TxHash
  outcome : SendOutcome
  deriving Repr, DecidableEq

/-- `getTransaction`. -/
inductive TransactionStatus
  | notFound (latestLedger oldestLedger : Nat)
  | success (ledger latestLedger : Nat) (returnValue : Option String)
  | failed (ledger latestLedger : Nat) (result : TransactionResult) (contractError : Option Nat)
  deriving Repr, DecidableEq

/-- `Except` has no decidable equality of its own. -/
instance instDecidableEqExcept {ε α : Type} [DecidableEq ε] [DecidableEq α] : DecidableEq (Except ε α)
  | .ok a, .ok b => decidable_of_iff (a = b) (by simp)
  | .error a, .error b => decidable_of_iff (a = b) (by simp)
  | .ok _, .error _ => isFalse (by simp)
  | .error _, .ok _ => isFalse (by simp)

end BlendLiquidator
