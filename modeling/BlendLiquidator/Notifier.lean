/-
Notifications (`notifier.rs`): deduplication in front of the channel, and a
bounded number of deliveries in flight behind it.

Calls of `notify_at` and their delivery tasks run beside each other, so a
call is taken apart where another can come between: the look at the dedup map
under its lock, the permit, the spawn, what the channel answers, the rollback
under the lock again, and the permit's return. A step of the machine is one
of these, of any call. What is only logged or counted is left out.
-/
import Mathlib.Logic.Function.Basic

namespace BlendLiquidator

/-- How many deliveries may be in flight at once. -/
def NOTIFY_IN_FLIGHT : Nat := 10

inductive Severity
  | low
  | medium
  | high
  deriving Repr, DecidableEq

inductive NotificationKind
  | auctionCreated
  | badDebtReported
  | fillConfirmed
  | fillFailed
  | submissionDropped
  | unwindLeftovers
  | pollerStalled
  | rpcFailing
  | eventGap
  | unfundedFill
  | stockWasmDetected
  deriving Repr, DecidableEq

structure Notification where
  kind : NotificationKind
  severity : Severity
  pool : String
  account : Option String
  message : String
  deriving Repr, DecidableEq

/-- What a notification is deduplicated by. -/
structure DedupKey where
  pool : String
  account : Option String
  kind : NotificationKind
  deriving Repr, DecidableEq

def Notification.key (notification : Notification) : DedupKey :=
  ⟨notification.pool, notification.account, notification.kind⟩

/-- What `notify` did with a notification. -/
inductive Delivery
  | queued
  | deduplicated
  | dropped
  deriving Repr, DecidableEq

/-- Where a call and its delivery task stand. -/
inductive Stage
  | deduplicated
  /-- Its dedup entry is in, and it has asked for no permit yet. -/
  | inserted
  /-- It found no permit, and has not rolled back yet. -/
  | refused
  | dropped
  /-- It has a permit, and has not spawned yet. -/
  | permitted
  /-- Its task waits on the channel. -/
  | sending
  /-- The channel refused it, and its task has not rolled back yet. -/
  | failed
  /-- Its task has nothing left to do but to give its permit back. -/
  | closing
  | finished
  deriving Repr, DecidableEq

namespace Stage

/-- What the call has answered. -/
def answer : Stage → Option Delivery
  | deduplicated => some .deduplicated
  | dropped => some .dropped
  | sending | failed | closing | finished => some .queued
  | inserted | refused | permitted => none

/-- Its notification was handed to a delivery task. -/
def handed : Stage → Bool
  | sending | failed | closing | finished => true
  | _ => false

/-- Its delivery is in flight: spawned, and not yet finished. -/
def inFlight : Stage → Bool
  | sending | failed | closing => true
  | _ => false

/-- It has its permit. -/
def holds : Stage → Bool
  | permitted | sending | failed | closing => true
  | _ => false

/-- Its entry is in, and its notification neither handed on nor rolled back. -/
def waiting : Stage → Bool
  | inserted | refused | permitted => true
  | _ => false

/-- It may still come to roll back. -/
def unsettled : Stage → Bool
  | inserted | refused | permitted | sending | failed => true
  | _ => false

end Stage

structure NotifyCall where
  notification : Notification
  now : Nat
  stage : Stage
  deriving Repr, DecidableEq

def NotifyCall.key (call : NotifyCall) : DedupKey := call.notification.key

/-- When a key was last sent. Which call inserted it is not in the source's
map, and no step reads it. -/
structure Sent where
  sentAt : Nat
  caller : Nat
  deriving Repr, DecidableEq

structure Notifier where
  recent : DedupKey → Option Sent := fun _ => none
  permits : Nat := NOTIFY_IN_FLIGHT
  /-- Permits a `drain` holds while it waits for the rest. -/
  drained : Nat := 0
  calls : List NotifyCall := []

namespace Notifier

/-- The key was sent within `cooldown` of `now`. -/
def suppresses (cooldown : Nat) (recent : DedupKey → Option Sent) (key : DedupKey) (now : Nat) : Bool :=
  match recent key with
  | some last => now - last.sentAt < cooldown
  | none => false

/-- Removes the key's entry if it still holds the time the call inserted. -/
def rollBack (recent : DedupKey → Option Sent) (key : DedupKey) (now : Nat) : DedupKey → Option Sent :=
  if (recent key).map (·.sentAt) = some now then Function.update recent key none else recent

/-- One step, and of which call. -/
inductive Step
  /-- `notify_at` up to the release of its lock. -/
  | notify (notification : Notification) (now : Nat)
  | tryAcquire (id : Nat)
  /-- The rollback of a call that found no permit. -/
  | drop (id : Nat)
  | spawn (id : Nat)
  /-- What the channel answered. -/
  | sent (id : Nat) (ok : Bool)
  /-- The rollback of a delivery the channel refused. -/
  | fallBack (id : Nat)
  | close (id : Nat)
  /-- A `drain` takes a permit that is free, or gives one back. -/
  | drainTake
  | drainRelease

def advance (s : Notifier) (id : Nat) (call : NotifyCall) (stage : Stage) : Notifier :=
  { s with calls := s.calls.set id { call with stage } }

/-- The next step of a call that stands at `stage`, and nothing of another. -/
def onCall (s : Notifier) (id : Nat) (stage : Stage) (next : NotifyCall → Notifier) : Notifier :=
  match s.calls[id]? with
  | some call => if call.stage = stage then next call else s
  | none => s

def step (cooldown : Nat) (s : Notifier) : Step → Notifier
  | .notify notification now =>
    if suppresses cooldown s.recent notification.key now then
      { s with calls := s.calls ++ [⟨notification, now, .deduplicated⟩] }
    else
      { s with
        recent := Function.update s.recent notification.key (some ⟨now, s.calls.length⟩)
        calls := s.calls ++ [⟨notification, now, .inserted⟩] }
  | .tryAcquire id => s.onCall id .inserted fun call =>
    if 0 < s.permits then { s.advance id call .permitted with permits := s.permits - 1 } else s.advance id call .refused
  | .drop id => s.onCall id .refused fun call =>
    { s.advance id call .dropped with recent := rollBack s.recent call.key call.now }
  | .spawn id => s.onCall id .permitted fun call => s.advance id call .sending
  | .sent id ok => s.onCall id .sending fun call => s.advance id call (if ok then .closing else .failed)
  | .fallBack id => s.onCall id .failed fun call =>
    { s.advance id call .closing with recent := rollBack s.recent call.key call.now }
  | .close id => s.onCall id .closing fun call => { s.advance id call .finished with permits := s.permits + 1 }
  | .drainTake => if 0 < s.permits then { s with permits := s.permits - 1, drained := s.drained + 1 } else s
  | .drainRelease => if 0 < s.drained then { s with permits := s.permits + 1, drained := s.drained - 1 } else s

/-- How many deliveries are in flight. -/
def inFlight (s : Notifier) : Nat := s.calls.countP (·.stage.inFlight)

end Notifier

end BlendLiquidator
