/-
The per-key submission queue (`queue.rs`): one submission at a time, retried
only where nothing was sent, and resolved by hash wherever something may
have been.

The queue owns the rule that nothing is prepared for a key while an earlier
transaction's outcome is unknown (`OneInFlight`): an in-flight transaction
may yet consume the sequence number the next `prepare` would read.
-/
import BlendLiquidator.Traces
import BlendLiquidator.Tx

namespace BlendLiquidator

open Oracle

/-- What a caller asks the queue to send. The label is for the log alone. -/
structure Submission where
  operation : Operation
  priority : Priority
  retries : Nat
  deriving Repr, DecidableEq

/-- Whether `error` proves nothing of this submission reached the network. -/
def sentNothing : ChainError → Bool
  | .rejected _ | .transport _ | .http _ | .rpc _ _ | .ledgerMoved _ _ => true
  | _ => false

/-- Sleeps, cut short by a shutdown request; answers the flag itself. -/
def pauseUnlessShutdown {ε : Type} : Run ε Bool := do
  sleep
  Prog.ask fun m => !m.shutdown

/-- One round of `resolve`: `wait_for`, and unless the outcome is terminal or
shutdown was requested, a pause. -/
def resolveOnce (s : Submitter) (fuel : Nat) (prepared : Prepared) : Run ChainError (Option TxOutcome) := do
  let outcome ← s.waitFor fuel .submission prepared.hash prepared.sequence prepared.window
  if outcome.isUnknown then
    let stopping ← Prog.ask Moment.shutdown
    if stopping then
      pure (some outcome)
    else
      let goesOn ← pauseUnlessShutdown
      pure (if goesOn then none else some outcome)
  else
    pure (some outcome)

/-- `wait_for` until the outcome is terminal. -/
def resolve (s : Submitter) (fuel : Nat) (prepared : Prepared) : Run ChainError TxOutcome :=
  Prog.repeatUntil (resolveOnce s fuel prepared) fuel

/-- Prepare, send, and resolve. A send whose answer is lost is resolved by
hash like any other: the RPC may have forwarded it. -/
def attempt (s : Submitter) (fuel : Nat) (submission : Submission) : Run ChainError TxOutcome := do
  let prepared ← s.prepare fuel submission.operation submission.priority
  match ← Prog.caught (s.send .submission prepared) with
  | .error .badSequence => Prog.fail .badSequence
  | .error (.rejected what) => Prog.fail (.rejected what)
  | .ok () | .error _ => resolve s fuel prepared

/-- One submission, to an answer the caller can act on, `retriesLeft` further
attempts allowed. -/
def submitUntilSettled (s : Submitter) (fuel : Nat) (submission : Submission) (retriesLeft : Nat) :
    Run QueueError TxOutcome := do
  match ← Prog.caught (attempt s fuel submission) with
  | .ok outcome => pure outcome
  | .error error =>
    match retriesLeft with
    | 0 => Prog.fail (.chain error)
    | retriesLeft + 1 =>
      if sentNothing error then
        let goesOn ← pauseUnlessShutdown
        if goesOn then submitUntilSettled s fuel submission retriesLeft else Prog.fail (.chain error)
      else
        Prog.fail (.chain error)

/-- One submission off the queue, answered. -/
def serve (s : Submitter) (fuel : Nat) (submission : Submission) : Run Empty Unit := do
  let stopping ← Prog.ask Moment.shutdown
  if stopping then
    note (.answered (.error .shuttingDown))
  else
    let outcome ← Prog.caught (submitUntilSettled s fuel submission submission.retries)
    note (.answered outcome)

/-- Drains the queue, one submission at a time in the order received. -/
def runQueueWith (s : Submitter) (fuel : Nat) : List Submission → Run Empty Unit
  | [] => pure ()
  | submission :: rest => do
    serve s fuel submission
    runQueueWith s fuel rest

/-! ## What a run may not do -/

/-- Whether the envelope may have been forwarded, by `sendTransaction`'s
answer: an error proves nothing, `ERROR` and `TRY_AGAIN_LATER` are refusals
before the network's queue. -/
def mayForward : Except RpcError SendStatus → Bool
  | .error _ => true
  | .ok status => match status.outcome with
    | .pending | .duplicate => true
    | .tryAgainLater | .error _ _ => false

/-- An answer that proves the transaction applied, failed or expired. -/
def Settles (prepared : Prepared) (act : Act) : Prop :=
  ∃ purpose status, act = .polled purpose prepared.hash prepared.window (.ok status) ∧
    (classify status prepared.hash prepared.window).isSome = true

/-- A transaction that may have been forwarded and that nothing since has
settled. -/
def Unsettled (acts : List Act) (prepared : Prepared) : Prop :=
  ∃ before purpose answer after, acts = before ++ .sent purpose prepared answer :: after ∧
    mayForward answer = true ∧ ∀ act ∈ after, ¬Settles prepared act

/-- The queue's rule: wherever a `prepare` starts, nothing sent before it is
unsettled. -/
def OneInFlight : List Act → Prop :=
  Traces.Before (· = .prepares) fun before _ => ∀ prepared, ¬Unsettled before prepared

/-- An answer by which a restore's outcome is lost to its `prepare`: the send
failed or was accepted under another hash, or polling stopped on an error no
retry can fix or at the cap. -/
def Act.losesRestore : Act → Bool
  | .sent .restore prepared answer => match answer with
    | .error _ => true
    | .ok status => mayForward (.ok status) && decide (status.hash ≠ prepared.hash)
  | .polled .restore _ _ (.error error) => !isTransient error.chain
  | .capped .restore _ _ => true
  | _ => false

/-- A `prepare` starts after a restore's outcome was lost. -/
def PreparesAfterLoss (acts : List Act) : Prop :=
  ∃ before act after, acts = before ++ act :: after ∧ act.losesRestore = true ∧ Act.prepares ∈ after

/-- How many envelopes of the submission's own may have been forwarded. -/
def forwards (acts : List Act) : Nat :=
  acts.countP fun
    | .sent .submission _ answer => mayForward answer
    | _ => false

/-- How many attempts were made. -/
def attempts (acts : List Act) : Nat := acts.countP (· = .prepares)

end BlendLiquidator
