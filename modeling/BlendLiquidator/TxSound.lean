/-
What `wait_for` answers is true of the chain: an outcome it reports as expired
can no longer happen, and one it reports as applied did.

The argument is three edges that have to meet: a transaction is applied from
its lower bound on and before its upper one, the RPC answers for the ledgers
it still holds, both ends included, and `classify` gives a transaction up only
where the first range lies within the second.
-/
import BlendLiquidator.QueueFacts

namespace BlendLiquidator

open Oracle

/-- The ledger a found transaction was applied in. -/
def TransactionStatus.ledger? : TransactionStatus → Option Nat
  | .notFound _ _ => none
  | .success ledger _ _ => some ledger
  | .failed ledger _ _ _ => some ledger

/-- An RPC that tells the truth about one transaction. `Applied` is the
chain's whole history, the part still to come included; at each moment the
RPC holds `oldest..=latest` of it. Calls may also fail. -/
structure TruthfulAbout (env : Nat → Moment) (hash : TxHash) (bounds : LedgerWindow) (Applied : Nat → Prop) :
    Prop where
  within : ∀ ledger, Applied ledger → bounds.minLedger ≤ ledger ∧ ledger < bounds.maxLedger
  notFound : ∀ t latest oldest, (env t).transaction hash = .ok (.notFound latest oldest) →
    ∀ ledger, oldest ≤ ledger → ledger ≤ latest → ¬Applied ledger
  found : ∀ t status ledger, (env t).transaction hash = .ok status → status.ledger? = some ledger →
    Applied ledger

/-- What an answer of `wait_for` says of the chain. -/
def TxOutcome.Sound (bounds : LedgerWindow) (Applied : Nat → Prop) : TxOutcome → Prop
  | .succeeded _ ledger _ | .failed _ ledger _ _ => Applied ledger
  -- Applied nowhere, and every ledger after the RPC's latest is past the bound.
  | .expired _ _ latestLedger => (∀ ledger, ¬Applied ledger) ∧
      ∀ ledger, latestLedger < ledger → ¬(bounds.minLedger ≤ ledger ∧ ledger < bounds.maxLedger)
  | .unknown _ _ _ => True

section

variable {env : Nat → Moment} {hash : TxHash} {bounds : LedgerWindow} {Applied : Nat → Prop}

theorem classify_sound (h : TruthfulAbout env hash bounds Applied) {t : Nat} {status : TransactionStatus}
    (hanswer : (env t).transaction hash = .ok status) {outcome : TxOutcome}
    (hclass : classify status hash bounds = some outcome) : outcome.Sound bounds Applied := by
  cases status with
  | success ledger latest value =>
    obtain rfl := Option.some.inj hclass
    exact h.found t _ ledger hanswer rfl
  | failed ledger latest result code =>
    obtain rfl := Option.some.inj hclass
    exact h.found t _ ledger hanswer rfl
  | notFound latest oldest =>
    simp only [classify] at hclass
    split at hclass
    · next hcovers =>
      obtain rfl := Option.some.inj hclass
      refine ⟨fun ledger hin => ?_, fun ledger hafter hin => ?_⟩
      · have hbounds := h.within ledger hin
        exact h.notFound t latest oldest hanswer ledger (by omega) (by omega) hin
      · omega
    · cases hclass

theorem pollOnce_sound (h : TruthfulAbout env hash bounds Applied) {purpose : Purpose} {sequence : Int}
    {deadline : Nat} : Triple env (fun _ => True) (Submitter.pollOnce purpose hash sequence bounds deadline)
      fun r _ => match r with
        | .ok (some outcome) => outcome.Sound bounds Applied
        | .ok none => True
        | .err _ => False
        | .running => True := by
  have huntil : Triple env (fun _ => True)
      (Submitter.pollOnce.untilDeadline purpose hash sequence bounds deadline)
      fun r _ => match r with
        | .ok (some outcome) => outcome.Sound bounds Applied
        | .ok none => True
        | .err _ => False
        | .running => True := by
    unfold Submitter.pollOnce.untilDeadline
    refine Triple.bind_ask fun t => ?_
    split
    · exact Triple.bind_modify (fun _ _ => trivial) (Triple.pure (P := fun _ => True) fun _ _ => trivial)
    · exact Triple.bind_ask fun _ => Triple.pure fun _ _ => trivial
  unfold Submitter.pollOnce
  refine Triple.bind_ask fun t => Triple.bind_modify (fun _ _ => trivial) (?_ : Triple env (fun _ => True) _ _)
  cases hanswer : (env t).transaction hash with
  | error e =>
    simp only [Except.map]
    split
    · exact huntil
    · exact Triple.pure fun _ _ => trivial
  | ok status =>
    simp only [Except.map]
    cases hclass : classify status hash bounds with
    | none => exact huntil
    | some outcome => exact Triple.pure fun _ _ => classify_sound h hanswer hclass

theorem waitFor_triple_sound (h : TruthfulAbout env hash bounds Applied) (s : Submitter) {fuel : Nat}
    {purpose : Purpose} {sequence : Int} :
    Triple env (fun _ => True) (s.waitFor fuel purpose hash sequence bounds) fun r _ => match r with
      | .ok outcome => outcome.Sound bounds Applied
      | .err _ => False
      | .running => True := by
  unfold Submitter.waitFor
  refine Triple.bind_ask fun t => Triple.repeatUntil ((pollOnce_sound h).conseq (fun _ h => h) ?_)
    fun _ _ => trivial
  intro r _ hr
  match r with
  | .ok (some _) => exact hr
  | .ok none => trivial
  | .err _ => exact hr
  | .running => trivial

end

/-- What `unsigned` signs as the bounds is the window it answers. -/
theorem unsigned_window {env : Nat → Moment} (s : Submitter) {operation : Operation} {sequence : Int}
    {latestLedger fee : Nat} : Triple env (fun _ => True) (s.unsigned operation sequence latestLedger fee)
      fun r _ => ∀ built, r = .ok built → built.1.ledgerBounds = built.2 := by
  unfold Submitter.unsigned
  refine Triple.bind_ask fun t => Triple.bind_lift (fun now _ => ?_) fun _ _ _ _ _ h => nomatch h
  refine Triple.bind_lift (fun max _ => ?_) fun _ _ _ _ _ h => nomatch h
  refine Triple.bind_lift (fun window _ => ?_) fun _ _ _ _ _ h => nomatch h
  refine Triple.pure fun _ _ built hbuilt => ?_
  obtain rfl := Res.ok.inj hbuilt
  rfl

/-- However long it polls and whatever the RPC fails to answer, `wait_for`
never fails, and its answer is true of the transaction `unsigned` built. -/
theorem waitFor_sound (s : Submitter) (env : Nat → Moment) (operation : Operation) (sequence : Int)
    (latestLedger fee t : Nat) (acts : List Act) (tx : Transaction) (window : LedgerWindow)
    (hbuilt : (s.unsigned operation sequence latestLedger fee env t acts).1 = .ok (tx, window))
    (hash : TxHash) (Applied : Nat → Prop) (htruthful : TruthfulAbout env hash tx.ledgerBounds Applied)
    (fuel : Nat) (purpose : Purpose) (u : Nat) (acts' : List Act) :
    match (s.waitFor fuel purpose hash sequence window env u acts').1 with
    | .ok outcome => outcome.Sound tx.ledgerBounds Applied
    | .err _ => False
    | .running => True := by
  have hwindow : tx.ledgerBounds = window := unsigned_window s t acts trivial _ hbuilt
  subst hwindow
  exact waitFor_triple_sound htruthful s u acts' trivial

/-- An RPC that has nothing of the transaction, its latest ledger moving on to
the bound. -/
def samplePolls (t : Nat) : Moment :=
  { sampleTimeout with transaction := fun _ => .ok (.notFound (if t < 4 then 1003 else 1006) 990) }

/-- Two polls: the first is too early to tell, the second is past the bound. -/
theorem waitFor_sound_expired :
    let window : LedgerWindow := ⟨1000, 1006, by decide⟩
    (sampleSubmitter.waitFor 3 .submission sampleRestore.hash 8 window samplePolls 1 []).1 =
        .ok (.expired sampleRestore.hash window 1006) ∧
      (TxOutcome.expired sampleRestore.hash window 1006).Sound window fun _ => False := by
  intro window
  have hrun : (sampleSubmitter.waitFor 3 .submission sampleRestore.hash 8 window samplePolls 1 []).1 =
      .ok (.expired sampleRestore.hash window 1006) := by decide +kernel
  let tx : Transaction :=
    { sourceAccount := "GAUCTIONEER", fee := 100, seqNum := 8, maxTime := 1700000300, ledgerBounds := window
      operation := sampleOperation, sorobanData := none }
  have hsound := waitFor_sound sampleSubmitter samplePolls sampleOperation 8 1000 100 0 [] tx window
    (by decide +kernel) sampleRestore.hash (fun _ => False)
    ⟨fun _ h => h.elim, fun _ _ _ _ _ _ _ h => h, fun t status ledger hanswer hledger => by
      cases hanswer
      cases hledger⟩ 3 .submission 1 []
  rw [hrun] at hsound
  exact ⟨hrun, hsound⟩

end BlendLiquidator
