/-
At most one landing per submission, and an error means nothing was spent.

Three functions have to agree about every error: `send`, whose errors after
the envelope left are told from its refusals; `wait_for`, which never fails
while a transaction may be in flight; and `sent_nothing`, which picks the
failures worth another attempt. The count of envelopes that may have been
forwarded (`forwards`) is carried through each of them: only an attempt that
leaves it unchanged can fail, so only such an attempt is repeated.
-/
import BlendLiquidator.QueueFacts

namespace BlendLiquidator

open Oracle

/-- A record with this many envelopes forwarded and attempts made. -/
def Counts (f n : Nat) (acts : List Act) : Prop := forwards acts = f ∧ attempts acts = n

/-- An act that is neither an attempt nor an envelope of the submission's own
that may have been forwarded. -/
def Act.counted : Act → Bool
  | .prepares => true
  | .sent .submission _ answer => mayForward answer
  | _ => false

theorem Counts.concat {f n : Nat} {acts : List Act} {act : Act} (h : Counts f n acts)
    (hact : act.counted = false) : Counts f n (acts ++ [act]) := by
  obtain ⟨rfl, rfl⟩ := h
  constructor
  · rw [forwards, forwards, List.countP_append, Nat.add_eq_left, List.countP_singleton]
    cases act with
    | sent purpose p answer => cases purpose <;> simp_all [Act.counted]
    | _ => rfl
  · rw [attempts, attempts, List.countP_append, Nat.add_eq_left, List.countP_singleton]
    cases act with
    | prepares => cases hact
    | _ => rfl

theorem Counts.prepares {f n : Nat} {acts : List Act} (h : Counts f n acts) :
    Counts f (n + 1) (acts ++ [.prepares]) := by
  obtain ⟨rfl, rfl⟩ := h
  exact ⟨by simp [forwards], by simp [attempts]⟩

theorem Counts.forwarded {f n : Nat} {acts : List Act} {p : Prepared}
    {answer : Except RpcError SendStatus} (h : Counts f n acts) (hf : mayForward answer = true) :
    Counts (f + 1) n (acts ++ [.sent .submission p answer]) := by
  obtain ⟨rfl, rfl⟩ := h
  exact ⟨by simp [forwards, hf], by simp [attempts]⟩

section Triples

variable {env : Nat → Moment} {s : Submitter} {fuel : Nat} {purpose : Purpose} {p : Prepared} {f n : Nat}

/-- Polling counts for nothing, and never fails. -/
theorem waitFor_counts {hash : TxHash} {sequence : Int} {window : LedgerWindow} :
    Triple env (Counts f n) (s.waitFor fuel purpose hash sequence window) fun r acts =>
      Counts f n acts ∧ ∀ e, r ≠ .err e := by
  have hdeadline : ∀ deadline, Triple env (Counts f n)
      (Submitter.pollOnce.untilDeadline purpose hash sequence window deadline) fun r acts =>
        Counts f n acts ∧ ∀ e, r ≠ .err e := by
    intro deadline
    unfold Submitter.pollOnce.untilDeadline
    refine Triple.bind_ask fun t => ?_
    split
    · exact Triple.bind_modify (fun _ h => h.concat rfl) (Triple.pure fun _ h => ⟨h, by simp⟩)
    · exact Triple.bind_ask fun _ => Triple.pure fun _ h => ⟨h, by simp⟩
  have hpoll : ∀ deadline, Triple env (Counts f n)
      (Submitter.pollOnce purpose hash sequence window deadline) fun r acts =>
        Counts f n acts ∧ ∀ e, r ≠ .err e := by
    intro deadline
    unfold Submitter.pollOnce
    refine Triple.bind_ask fun t => Triple.bind_modify (fun _ h => h.concat rfl) ?_
    split
    · exact Triple.pure fun _ h => ⟨h, by simp⟩
    · exact hdeadline deadline
    · split
      · exact hdeadline deadline
      · exact Triple.pure fun _ h => ⟨h, by simp⟩
  unfold Submitter.waitFor
  refine Triple.bind_ask fun t => ?_
  refine Triple.repeatUntil ((hpoll _).conseq (fun _ h => h) fun r acts h => ?_) fun _ h => ⟨h, by simp⟩
  cases r with
  | ok answer =>
    cases answer with
    | none => exact h.1
    | some outcome => exact ⟨h.1, by simp⟩
  | err e => exact absurd rfl (h.2 e)
  | running => exact ⟨h.1, by simp⟩

/-- A send of the submission's own: counted once unless it is refused. -/
def SendCounts (f n : Nat) : Res ChainError Unit → List Act → Prop
  | .err .badSequence, acts | .err (.rejected _), acts => Counts f n acts
  | .running, _ => False
  | _, acts => Counts (f + 1) n acts

theorem sendTransaction_counts :
    Triple env (Counts f n) (Submitter.sendTransaction .submission p) fun r acts => match r with
      | .ok status => Counts (if mayForward (.ok status) then f + 1 else f) n acts
      | .err error => Counts (f + 1) n acts ∧ ∃ e : RpcError, error = e.chain
      | .running => False := by
  unfold Submitter.sendTransaction
  refine Triple.bind_ask fun t => ?_
  cases (env t).send p.envelope with
  | error e =>
    refine Triple.bind_modify (fun _ h => Counts.forwarded h rfl) (Triple.lift (fun _ h => by cases h) ?_)
    intro e' he acts h
    exact ⟨h, e, by simpa [Except.mapError] using he.symm⟩
  | ok status =>
    have hrecord : ∀ acts, Counts f n acts →
        Counts (if mayForward (.ok status) then f + 1 else f) n
          (acts ++ [.sent .submission p (.ok status)]) := by
      intro acts h
      split
      · next hf => exact h.forwarded hf
      · next hf => exact h.concat (by simpa [Act.counted] using hf)
    refine Triple.bind_modify hrecord (Triple.lift (fun a ha acts h => ?_) fun _ h => by cases h)
    rw [show a = status by simpa [Except.mapError] using ha.symm]
    exact h

theorem readSend_counts {status : SendStatus} {again : Run ChainError Unit}
    (hagain : Triple env (Counts f n) again (SendCounts f n)) :
    Triple env (Counts (if mayForward (.ok status) then f + 1 else f) n)
      (s.readSend p status again) (SendCounts f n) := by
  unfold Submitter.readSend
  obtain ⟨hash, outcome⟩ := status
  cases outcome with
  | pending | duplicate =>
    by_cases hhash : hash = p.hash
    · simp only [hhash, ↓reduceIte]
      exact Triple.pure fun _ h => h
    · simp only [hhash, ↓reduceIte]
      exact Triple.fail fun _ h => h
  | tryAgainLater => exact hagain
  | error result code =>
    cases result with
    | none => exact Triple.fail fun _ h => h
    | some result =>
      obtain ⟨fee, result⟩ := result
      cases result with
      | txBadSeq => exact Triple.fail fun _ h => h
      | other xdr => exact Triple.fail fun _ h => h

theorem send_counts : Triple env (Counts f n) (s.send .submission p) (SendCounts f n) := by
  have herr : ∀ (error : ChainError) (acts : List Act),
      (Counts (f + 1) n acts ∧ ∃ e : RpcError, error = e.chain) → SendCounts f n (.err error) acts := by
    rintro _ acts ⟨h, e, rfl⟩
    cases e <;> exact h
  unfold Submitter.send
  refine Triple.bind sendTransaction_counts (fun status => readSend_counts ?_) herr (fun _ h => h)
  refine Triple.bind_ask fun _ => ?_
  refine Triple.bind sendTransaction_counts (fun status => readSend_counts ?_) herr (fun _ h => h)
  exact Triple.fail fun _ h => h

/-- A restore's send is another transaction's. -/
theorem send_restore_counts : Triple env (Counts f n) (s.send .restore p) fun _ => Counts f n := by
  have hsend : Triple env (Counts f n) (Submitter.sendTransaction .restore p) fun _ => Counts f n := by
    unfold Submitter.sendTransaction
    refine Triple.bind_ask fun t => Triple.bind_modify (fun _ h => h.concat rfl) ?_
    exact lift_triple
  have hread : ∀ (status : SendStatus) (again : Run ChainError Unit),
      (Triple env (Counts f n) again fun _ => Counts f n) →
      Triple env (Counts f n) (s.readSend p status again) fun _ => Counts f n := by
    intro status again hagain
    unfold Submitter.readSend
    split
    · split
      · exact Triple.pure fun _ h => h
      · exact Triple.fail fun _ h => h
    · split
      · exact Triple.pure fun _ h => h
      · exact Triple.fail fun _ h => h
    · exact hagain
    · exact Triple.fail fun _ h => h
    · exact Triple.fail fun _ h => h
  unfold Submitter.send
  refine Triple.bind hsend (fun status => hread status _ ?_) (fun _ _ h => h) (fun _ h => h)
  refine Triple.bind_ask fun _ => ?_
  refine Triple.bind hsend (fun status => hread status _ ?_) (fun _ _ h => h) (fun _ h => h)
  exact Triple.fail fun _ h => h

theorem restore_counts {preamble : RestorePreamble} {sequence : Int} {latest inclusion : Nat} :
    Triple env (Counts f n) (s.restore fuel preamble sequence latest inclusion) fun _ => Counts f n := by
  unfold Submitter.restore
  refine Triple.bind_lift (fun fee _ => ?_) (fun _ _ _ h => h)
  refine Triple.bind unsigned_triple (fun built => ?_) (fun _ _ h => h) (fun _ h => h)
  refine Triple.bind_lift (fun envelope _ => ?_) (fun _ _ _ h => h)
  refine Triple.bind_lift (fun hash _ => ?_) (fun _ _ _ h => h)
  refine Triple.bind_caught send_restore_counts (fun _ => ?_) (fun e => ?_) (fun _ h => h)
  · refine Triple.bind waitFor_counts (fun outcome => ?_) (fun _ _ h => h.1) (fun _ h => h.1)
    exact lift_triple.pre fun _ h => h.1
  · cases e <;> exact Triple.fail fun _ h => h

/-- A `prepare` is one attempt and forwards nothing of the submission's own,
however it ends. -/
theorem prepare_counts {operation : Operation} {priority : Priority} :
    Triple env (Counts f n) (s.prepare fuel operation priority) fun _ => Counts f (n + 1) := by
  unfold Submitter.prepare
  refine Triple.bind_modify (fun _ h => Counts.prepares h) ?_
  refine Triple.bind rpc_triple (fun account => ?_) (fun _ _ h => h) (fun _ h => h)
  refine Triple.bind rpc_triple (fun fees => ?_) (fun _ _ h => h) (fun _ h => h)
  refine Triple.bind_lift (fun sequence _ => ?_) (fun _ _ _ h => h)
  refine Triple.bind simulateCall_triple (fun simulated => ?_) (fun _ _ h => h) (fun _ h => h)
  have hrestored : Triple env (Counts f (n + 1))
      (s.restored fuel operation sequence (s.inclusionFee fees priority) simulated.1 simulated.2)
      fun _ => Counts f (n + 1) := by
    unfold Submitter.restored
    cases simulated.1.restore with
    | none => exact Triple.pure fun _ h => h
    | some preamble =>
      refine Triple.bind restore_counts (fun _ => ?_) (fun _ _ h => h) (fun _ h => h)
      refine Triple.bind_lift (fun _ _ => ?_) (fun _ _ _ h => h)
      refine Triple.bind simulateCall_triple (fun again => ?_) (fun _ _ h => h) (fun _ h => h)
      dsimp only
      split
      · exact Triple.fail fun _ h => h
      · exact Triple.pure fun _ h => h
  refine Triple.bind hrestored (fun again => ?_) (fun _ _ h => h) (fun _ h => h)
  refine Triple.bind unsigned_triple (fun built => ?_) (fun _ _ h => h) (fun _ h => h)
  refine Triple.bind_lift (fun tx _ => ?_) (fun _ _ _ h => h)
  refine Triple.bind_lift (fun envelope _ => ?_) (fun _ _ _ h => h)
  refine Triple.bind_lift (fun hash _ => ?_) (fun _ _ _ h => h)
  exact Triple.pure fun _ h => h

theorem resolve_counts : Triple env (Counts f n) (resolve s fuel p) fun r acts =>
    Counts f n acts ∧ ∀ e, r ≠ .err e := by
  unfold resolve
  refine Triple.repeatUntil ?_ fun _ h => ⟨h, by simp⟩
  unfold resolveOnce
  refine Triple.bind waitFor_counts (fun outcome => ?_) (fun e _ h => absurd rfl (h.2 e))
    (fun _ h => ⟨h.1, by simp⟩)
  split
  · refine Triple.bind_ask fun t => ?_
    split
    · exact Triple.pure fun _ h => ⟨h.1, by simp⟩
    · refine Triple.bind pause_triple (fun goesOn => ?_) (fun _ _ h => ?_) (fun _ h => ?_)
      · cases goesOn with
        | true => exact Triple.pure fun _ h => h.1.1
        | false => exact Triple.pure fun _ h => ⟨h.1.1, by simp⟩
      · obtain ⟨-, _, heq⟩ := h
        cases heq
      · obtain ⟨-, _, heq⟩ := h
        cases heq
  · exact Triple.pure fun _ h => ⟨h.1, by simp⟩

/-- An attempt that fails forwarded nothing; one that does not, at most one
envelope. -/
theorem attempt_counts {submission : Submission} :
    Triple env (Counts f n) (attempt s fuel submission) fun r acts =>
      forwards acts ≤ f + 1 ∧ attempts acts = n + 1 ∧ ∀ e, r = .err e → forwards acts = f := by
  have hprepared : ∀ (r : Res ChainError TxOutcome) (acts : List Act), Counts f (n + 1) acts →
      forwards acts ≤ f + 1 ∧ attempts acts = n + 1 ∧ ∀ e, r = .err e → forwards acts = f :=
    fun _ _ h => ⟨by have := h.1; omega, h.2, fun _ _ => h.1⟩
  unfold attempt
  refine Triple.bind prepare_counts (fun prepared => ?_) (fun _ _ h => hprepared _ _ h)
    (fun _ h => hprepared _ _ h)
  have hresolve : Triple env (Counts (f + 1) (n + 1)) (resolve s fuel prepared) fun r acts =>
      forwards acts ≤ f + 1 ∧ attempts acts = n + 1 ∧ ∀ e, r = .err e → forwards acts = f :=
    resolve_counts.conseq (fun _ h => h) fun r acts h => ⟨h.1.1.le, h.1.2, fun e he => absurd he (h.2 e)⟩
  refine Triple.bind_caught send_counts (fun _ => ?_) (fun e => ?_) (fun _ h => h.elim)
  · exact hresolve
  · cases e with
    | badSequence => exact Triple.fail fun _ h => hprepared _ _ h
    | rejected what => exact Triple.fail fun _ h => hprepared _ _ h
    | _ => exact hresolve

theorem submitUntilSettled_counts {submission : Submission} {retriesLeft : Nat} :
    Triple env (Counts f n) (submitUntilSettled s fuel submission retriesLeft) fun r acts =>
      forwards acts ≤ f + 1 ∧ attempts acts ≤ n + retriesLeft + 1 ∧
        ∀ e, r = .err (.chain e) → forwards acts = f := by
  induction retriesLeft generalizing n with
  | zero =>
    unfold submitUntilSettled
    refine Triple.bind_caught attempt_counts (fun _ => ?_) (fun e => ?_) (fun _ h => ?_)
    · exact Triple.pure fun _ h => ⟨h.1, h.2.1.le, by simp⟩
    · exact Triple.fail fun _ h => ⟨h.1, h.2.1.le, fun _ _ => h.2.2 e rfl⟩
    · exact ⟨h.1, h.2.1.le, by simp⟩
  | succ retriesLeft ih =>
    unfold submitUntilSettled
    refine Triple.bind_caught attempt_counts (fun _ => ?_) (fun e => ?_) (fun _ h => ?_)
    · exact Triple.pure fun _ h => ⟨h.1, by omega, by simp⟩
    · have hfail : Triple env (fun acts => forwards acts ≤ f + 1 ∧ attempts acts = n + 1 ∧
          ∀ e', (Res.err e : Res ChainError TxOutcome) = .err e' → forwards acts = f)
          (Prog.fail (.chain e) : Run QueueError TxOutcome) fun r acts =>
            forwards acts ≤ f + 1 ∧ attempts acts ≤ n + (retriesLeft + 1) + 1 ∧
              ∀ e, r = .err (.chain e) → forwards acts = f :=
        Triple.fail fun _ h => ⟨h.1, by omega, fun _ _ => h.2.2 e rfl⟩
      dsimp only
      split
      · refine Triple.bind pause_triple (fun goesOn => ?_) (fun _ _ h => ?_) (fun _ h => ?_)
        · cases goesOn with
          | true =>
            -- Nothing was forwarded by the attempt that failed, so the next starts from the same count.
            refine (ih (n := n + 1)).conseq (fun _ h => ⟨h.1.2.2 e rfl, h.1.2.1⟩) fun r acts h => ?_
            exact ⟨h.1, by omega, h.2.2⟩
          | false => exact hfail.pre fun _ h => h.1
        · obtain ⟨-, _, heq⟩ := h
          cases heq
        · obtain ⟨-, _, heq⟩ := h
          cases heq
      · exact hfail
    · exact ⟨h.1, by omega, by simp⟩

end Triples

/-- **At most one landing per submission, and an error means nothing was
spent.** Whatever the RPC answers and whenever shutdown is requested, at most
one envelope of the submission's own may have been forwarded, at most
`retries + 1` attempts are made, and a chain error is answered only when no
envelope may have been. -/
theorem submitUntilSettled_once (s : Submitter) (fuel : Nat) (env : Nat → Moment) (t : Nat)
    (submission : Submission) :
    let run := submitUntilSettled s fuel submission submission.retries env t []
    forwards run.2.2 ≤ 1 ∧ attempts run.2.2 ≤ submission.retries + 1 ∧
      ∀ e, run.1 = .err (.chain e) → forwards run.2.2 = 0 := by
  have hstart : Counts 0 0 [] := ⟨rfl, rfl⟩
  obtain ⟨hforwards, hattempts, herr⟩ :=
    @submitUntilSettled_counts env s fuel 0 0 submission submission.retries t [] hstart
  exact ⟨hforwards, by omega, herr⟩

end BlendLiquidator
