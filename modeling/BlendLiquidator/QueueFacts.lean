/-
What holds of every run of the queue.

The queue keeps its rule for everything it sends itself: an envelope of a
submission's own is settled before the queue moves on, unless shutdown
interrupts it. It does not keep it for the restore a `prepare` sends: one
whose outcome is lost comes back as an error, which is answered to the
caller, and the next submission is prepared while the restore may still
land. So the rule holds of exactly the runs in which no `prepare` starts
after such a loss (`runQueueWith_oneInFlight_iff`).

The proof follows the run in four states: nothing unsettled and nothing lost
(`Good`), one transaction in flight (`Flying`), a restore lost and nothing
prepared since (`Dangling`), and the rule broken (`Broken`). Each function
has one triple over them.
-/
import BlendLiquidator.Queue

namespace BlendLiquidator

open Oracle Traces

/-! ## Records one act longer -/

theorem unsettled_concat {acts : List Act} {act : Act} {p : Prepared} :
    Unsettled (acts ++ [act]) p ↔ Unsettled acts p ∧ ¬Settles p act ∨
      ∃ purpose answer, act = .sent purpose p answer ∧ mayForward answer = true := by
  constructor
  · rintro ⟨before, purpose, answer, after, heq, hf, hnot⟩
    rcases concat_eq_split.1 heq with ⟨-, rfl, -⟩ | ⟨after', rfl, rfl⟩
    · exact .inr ⟨purpose, answer, rfl, hf⟩
    · exact .inl ⟨⟨before, purpose, answer, after', rfl, hf, fun a ha => hnot a (by simp [ha])⟩,
        hnot act (by simp)⟩
  · rintro (⟨⟨before, purpose, answer, after, rfl, hf, hnot⟩, hact⟩ | ⟨purpose, answer, rfl, hf⟩)
    · refine ⟨before, purpose, answer, after ++ [act], by simp, hf, fun a ha => ?_⟩
      rcases List.mem_append.1 ha with ha | ha
      · exact hnot a ha
      · rw [List.mem_singleton.1 ha]; exact hact
    · exact ⟨acts, purpose, answer, [], rfl, hf, by simp⟩

theorem oneInFlight_concat {acts : List Act} {act : Act} :
    OneInFlight (acts ++ [act]) ↔
      OneInFlight acts ∧ (act = .prepares → ∀ p, ¬Unsettled acts p) := before_concat

theorem preparesAfterLoss_concat {acts : List Act} {act : Act} :
    PreparesAfterLoss (acts ++ [act]) ↔
      PreparesAfterLoss acts ∨ act = .prepares ∧ ∃ a ∈ acts, a.losesRestore = true := by
  constructor
  · rintro ⟨before, x, after, heq, hx, hmem⟩
    rcases concat_eq_split.1 heq with ⟨-, -, rfl⟩ | ⟨after', rfl, rfl⟩
    · simp at hmem
    · rcases List.mem_append.1 hmem with hmem | hmem
      · exact .inl ⟨before, x, after', rfl, hx, hmem⟩
      · exact .inr ⟨(List.mem_singleton.1 hmem).symm, x, by simp, hx⟩
  · rintro (⟨before, x, after, rfl, hx, hmem⟩ | ⟨rfl, x, hmem, hx⟩)
    · exact ⟨before, x, after ++ [act], by simp, hx, by simp [hmem]⟩
    · obtain ⟨before, after, rfl⟩ := List.append_of_mem hmem
      exact ⟨before, x, after ++ [.prepares], by simp, hx, by simp⟩

/-! ## Where a run can stand -/

/-- Nothing lost, nothing unsettled. -/
structure Good (acts : List Act) : Prop where
  rule : OneInFlight acts
  kept : ∀ a ∈ acts, a.losesRestore = false
  settled : ∀ p, ¬Unsettled acts p

/-- One transaction in flight, and only that one. -/
structure Flying (p : Prepared) (acts : List Act) : Prop where
  rule : OneInFlight acts
  kept : ∀ a ∈ acts, a.losesRestore = false
  inFlight : Unsettled acts p
  only : ∀ q, Unsettled acts q → q.hash = p.hash ∧ q.window = p.window

/-- A restore was lost and is unsettled; nothing was prepared since. -/
structure Dangling (acts : List Act) : Prop where
  rule : OneInFlight acts
  lost : ∃ a ∈ acts, a.losesRestore = true
  since : ¬PreparesAfterLoss acts
  inFlight : ∃ p, Unsettled acts p

/-- The rule is broken, by a `prepare` after a loss. -/
structure Broken (acts : List Act) : Prop where
  rule : ¬OneInFlight acts
  after : PreparesAfterLoss acts

/-- After a `prepare` has started and before anything is sent. -/
def Begun (acts : List Act) : Prop := Broken acts ∨ Good acts

/-- Between two submissions. -/
def Between (acts : List Act) : Prop := Broken acts ∨ Dangling acts ∨ Good acts

/-- A restore's outcome was lost in this `prepare` (or the rule was broken
before). -/
def Lost (acts : List Act) : Prop := Broken acts ∨ Dangling acts

def InFlight (p : Prepared) (acts : List Act) : Prop := Broken acts ∨ Flying p acts

/-- The rule holds exactly when nothing was prepared after a loss. -/
def Exactly (acts : List Act) : Prop := OneInFlight acts ↔ ¬PreparesAfterLoss acts

theorem not_preparesAfterLoss {acts : List Act} (h : ∀ a ∈ acts, a.losesRestore = false) :
    ¬PreparesAfterLoss acts := by
  rintro ⟨before, act, after, rfl, hact, -⟩
  rw [h act (by simp)] at hact
  cases hact

theorem Broken.exactly {acts : List Act} (h : Broken acts) : Exactly acts :=
  ⟨fun hr => absurd hr h.rule, fun hn => absurd h.after hn⟩

theorem Good.exactly {acts : List Act} (h : Good acts) : Exactly acts :=
  ⟨fun _ => not_preparesAfterLoss h.kept, fun _ => h.rule⟩

theorem Flying.exactly {p : Prepared} {acts : List Act} (h : Flying p acts) : Exactly acts :=
  ⟨fun _ => not_preparesAfterLoss h.kept, fun _ => h.rule⟩

theorem Dangling.exactly {acts : List Act} (h : Dangling acts) : Exactly acts :=
  ⟨fun _ => h.since, fun _ => h.rule⟩

theorem Between.exactly {acts : List Act} (h : Between acts) : Exactly acts := by
  rcases h with h | h | h
  · exact h.exactly
  · exact h.exactly
  · exact h.exactly

theorem InFlight.exactly {p : Prepared} {acts : List Act} (h : InFlight p acts) : Exactly acts := by
  rcases h with h | h
  · exact h.exactly
  · exact h.exactly

theorem Begun.between {acts : List Act} (h : Begun acts) : Between acts := h.imp_right .inr

theorem Lost.between {acts : List Act} (h : Lost acts) : Between acts := h.imp_right .inl

/-! ## One act more -/

theorem Broken.concat {acts : List Act} (h : Broken acts) (act : Act) : Broken (acts ++ [act]) :=
  ⟨fun hr => h.rule (oneInFlight_concat.1 hr).1, preparesAfterLoss_concat.2 (.inl h.after)⟩

/-- A `prepare` from a good record begins; from a dangling one it breaks the
rule. -/
theorem Between.prepares {acts : List Act} (h : Between acts) : Begun (acts ++ [.prepares]) := by
  rcases h with h | h | h
  · exact .inl (h.concat _)
  · obtain ⟨p, hp⟩ := h.inFlight
    exact .inl ⟨fun hr => (oneInFlight_concat.1 hr).2 rfl p hp,
      preparesAfterLoss_concat.2 (.inr ⟨rfl, h.lost⟩)⟩
  · refine .inr ⟨oneInFlight_concat.2 ⟨h.rule, fun _ => h.settled⟩, fun a ha => ?_, fun p hp => ?_⟩
    · rcases List.mem_append.1 ha with ha | ha
      · exact h.kept a ha
      · rw [List.mem_singleton.1 ha]; rfl
    · rcases unsettled_concat.1 hp with ⟨hp, -⟩ | ⟨_, _, hact, -⟩
      · exact h.settled p hp
      · cases hact

/-- An act that prepares nothing, loses nothing and forwards nothing. -/
structure Quiet (act : Act) : Prop where
  prepares : act ≠ .prepares
  loses : act.losesRestore = false
  forwards : ∀ purpose p answer, act = .sent purpose p answer → mayForward answer = false

theorem kept_concat {acts : List Act} {act : Act} (h : ∀ a ∈ acts, a.losesRestore = false)
    (hact : act.losesRestore = false) : ∀ a ∈ acts ++ [act], a.losesRestore = false := by
  intro a ha
  rcases List.mem_append.1 ha with ha | ha
  · exact h a ha
  · rw [List.mem_singleton.1 ha]; exact hact

theorem Good.quiet {acts : List Act} {act : Act} (h : Good acts) (hq : Quiet act) : Good (acts ++ [act]) := by
  refine ⟨oneInFlight_concat.2 ⟨h.rule, fun heq => absurd heq hq.prepares⟩, kept_concat h.kept hq.loses,
    fun p hp => ?_⟩
  rcases unsettled_concat.1 hp with ⟨hp, -⟩ | ⟨purpose, answer, hact, hf⟩
  · exact h.settled p hp
  · rw [hq.forwards purpose p answer hact] at hf
    cases hf

theorem Begun.quiet {acts : List Act} {act : Act} (h : Begun acts) (hq : Quiet act) : Begun (acts ++ [act]) :=
  h.imp (·.concat _) (·.quiet hq)

/-- A send that may have been forwarded puts its transaction in flight. -/
theorem Good.flying {acts : List Act} {purpose : Purpose} {p : Prepared}
    {answer : Except RpcError SendStatus} (h : Good acts) (hf : mayForward answer = true)
    (hloss : (Act.sent purpose p answer).losesRestore = false) :
    Flying p (acts ++ [.sent purpose p answer]) := by
  refine ⟨oneInFlight_concat.2 ⟨h.rule, fun heq => by cases heq⟩, kept_concat h.kept hloss,
    unsettled_concat.2 (.inr ⟨purpose, answer, rfl, hf⟩), fun q hq => ?_⟩
  rcases unsettled_concat.1 hq with ⟨hq, -⟩ | ⟨_, _, hact, -⟩
  · exact absurd hq (h.settled q)
  · cases hact; exact ⟨rfl, rfl⟩

/-- A loss with a transaction left unsettled dangles. -/
theorem dangling_of_loss {acts : List Act} {act : Act} {p : Prepared} (hrule : OneInFlight acts)
    (hkept : ∀ a ∈ acts, a.losesRestore = false) (hne : act ≠ .prepares) (hloss : act.losesRestore = true)
    (hp : Unsettled (acts ++ [act]) p) : Dangling (acts ++ [act]) := by
  refine ⟨oneInFlight_concat.2 ⟨hrule, fun heq => absurd heq hne⟩, ⟨act, by simp, hloss⟩, fun hafter => ?_,
    ⟨p, hp⟩⟩
  rcases preparesAfterLoss_concat.1 hafter with hafter | ⟨heq, -⟩
  · exact not_preparesAfterLoss hkept hafter
  · exact hne heq

theorem Between.quiet {acts : List Act} {act : Act} (h : Between acts) (hq : Quiet act)
    (hpoll : ∀ p, ¬Settles p act) : Between (acts ++ [act]) := by
  rcases h with h | h | h
  · exact .inl (h.concat _)
  · obtain ⟨a, ha, hloss⟩ := h.lost
    obtain ⟨p, hp⟩ := h.inFlight
    refine .inr (.inl ⟨oneInFlight_concat.2 ⟨h.rule, fun heq => absurd heq hq.prepares⟩,
      ⟨a, by simp [ha], hloss⟩, fun hafter => ?_, ⟨p, unsettled_concat.2 (.inl ⟨hp, hpoll p⟩)⟩⟩)
    rcases preparesAfterLoss_concat.1 hafter with hafter | ⟨heq, -⟩
    · exact h.since hafter
    · exact hq.prepares heq
  · exact .inr (.inr (h.quiet hq))

/-- While its transaction flies, a poll or a cap that settles nothing leaves
it flying or, for a restore, lost. -/
theorem InFlight.unsettling {acts : List Act} {act : Act} {p : Prepared} (h : InFlight p acts)
    (hne : act ≠ .prepares) (hsent : ∀ purpose q answer, act ≠ .sent purpose q answer)
    (hnot : ¬Settles p act) :
    act.losesRestore = false ∧ InFlight p (acts ++ [act]) ∨
      act.losesRestore = true ∧ Lost (acts ++ [act]) := by
  have hstill : Flying p acts → Unsettled (acts ++ [act]) p := fun h =>
    unsettled_concat.2 (.inl ⟨h.inFlight, hnot⟩)
  cases hloss : act.losesRestore with
  | true =>
    refine .inr ⟨rfl, h.imp (·.concat _) fun h => ?_⟩
    exact dangling_of_loss h.rule h.kept hne hloss (hstill h)
  | false =>
    refine .inl ⟨rfl, h.imp (·.concat _) fun h => ?_⟩
    refine ⟨oneInFlight_concat.2 ⟨h.rule, fun heq => absurd heq hne⟩, kept_concat h.kept hloss, hstill h,
      fun q hq => ?_⟩
    rcases unsettled_concat.1 hq with ⟨hq, -⟩ | ⟨purpose, answer, hact, -⟩
    · exact h.only q hq
    · exact absurd hact (hsent purpose q answer)

/-- A poll that settles it lands the transaction in flight. -/
theorem InFlight.settled {acts : List Act} {purpose : Purpose} {p : Prepared} {status : TransactionStatus}
    (h : InFlight p acts) (hs : (classify status p.hash p.window).isSome = true) :
    Begun (acts ++ [.polled purpose p.hash p.window (.ok status)]) := by
  refine h.imp (·.concat _) fun h => ?_
  refine ⟨oneInFlight_concat.2 ⟨h.rule, fun heq => by cases heq⟩, kept_concat h.kept ?_, fun q hq => ?_⟩
  · cases purpose <;> rfl
  · rcases unsettled_concat.1 hq with ⟨hq, hnot⟩ | ⟨_, _, hact, -⟩
    · obtain ⟨hhash, hwindow⟩ := h.only q hq
      refine hnot ⟨purpose, status, ?_, ?_⟩
      · rw [hhash, hwindow]
      · rw [hhash, hwindow]; exact hs
    · cases hact

/-! ## One triple per function -/

section Triples

variable {env : Nat → Moment} {s : Submitter} {fuel : Nat} {purpose : Purpose} {p : Prepared}

/-- The parts of `prepare` that send nothing put nothing on the record. -/
theorem unsigned_triple {P : List Act → Prop} {operation : Operation} {sequence : Int} {latest fee : Nat} :
    Triple env P (s.unsigned operation sequence latest fee) fun _ => P := by
  unfold Submitter.unsigned
  refine Triple.bind_ask fun t => Triple.bind_lift (fun _ _ => ?_) (fun _ _ _ h => h)
  refine Triple.bind_lift (fun _ _ => ?_) (fun _ _ _ h => h)
  refine Triple.bind_lift (fun _ _ => ?_) (fun _ _ _ h => h)
  exact Triple.pure fun _ h => h

theorem lift_triple {P : List Act → Prop} {α : Type} {x : Except ChainError α} :
    Triple env P (Prog.lift x : Run ChainError α) fun _ => P :=
  Triple.lift (fun _ _ _ h => h) (fun _ _ _ h => h)

theorem rpc_triple {P : List Act → Prop} {α : Type} {method : Moment → Except RpcError α} :
    Triple env P (rpc method) fun _ => P := by
  unfold rpc
  exact Triple.bind_ask fun _ => lift_triple

theorem simulateCall_triple {P : List Act → Prop} {operation : Operation} {sequence : Int} {latest : Nat} :
    Triple env P (s.simulateCall operation sequence latest) fun _ => P := by
  unfold Submitter.simulateCall
  refine Triple.bind unsigned_triple (fun _ => ?_) (fun _ _ h => h) (fun _ h => h)
  refine Triple.bind rpc_triple (fun _ => ?_) (fun _ _ h => h) (fun _ h => h)
  exact lift_triple

/-- A transaction whose outcome its sender stops following: a restore's is
lost, a submission's own stays in flight. -/
def Adrift (purpose : Purpose) (p : Prepared) (acts : List Act) : Prop :=
  match purpose with
  | .restore => Lost acts
  | .submission => InFlight p acts

theorem Begun.sent {acts : List Act} {answer : Except RpcError SendStatus} (h : Begun acts)
    (hf : mayForward answer = true) :
    ((Act.sent purpose p answer).losesRestore = false → InFlight p (acts ++ [.sent purpose p answer])) ∧
      ((Act.sent purpose p answer).losesRestore = true → Lost (acts ++ [.sent purpose p answer])) := by
  refine ⟨fun hloss => h.imp (·.concat _) (·.flying hf hloss), fun hloss => h.imp (·.concat _) fun h => ?_⟩
  exact dangling_of_loss h.rule h.kept (by simp) hloss (unsettled_concat.2 (.inr ⟨purpose, answer, rfl, hf⟩))

/-- Where a `sendTransaction` that answered leaves its transaction. -/
def Answered (purpose : Purpose) (p : Prepared) (status : SendStatus) (acts : List Act) : Prop :=
  if mayForward (.ok status) = true then
    if status.hash = p.hash then InFlight p acts else Adrift purpose p acts
  else Begun acts

theorem sendTransaction_triple :
    Triple env Begun (Submitter.sendTransaction purpose p) fun r acts => match r with
      | .ok status => Answered purpose p status acts
      | .err error => Adrift purpose p acts ∧ ∃ e : RpcError, error = e.chain
      | .running => False := by
  unfold Submitter.sendTransaction
  refine Triple.bind_ask fun t => ?_
  cases (env t).send p.envelope with
  | error e =>
    have hrecord : ∀ acts, Begun acts → Adrift purpose p (acts ++ [.sent purpose p (.error e)]) := by
      intro acts h
      obtain ⟨hfly, hlost⟩ := @Begun.sent purpose p acts (.error e) h rfl
      cases purpose with
      | restore => exact hlost rfl
      | submission => exact hfly rfl
    refine Triple.bind_modify hrecord (Triple.lift (fun _ h => by cases h) fun e' he acts h => ?_)
    exact ⟨h, e, by simpa [Except.mapError] using he.symm⟩
  | ok status =>
    have hrecord : ∀ acts, Begun acts →
        Answered purpose p status (acts ++ [.sent purpose p (.ok status)]) := by
      intro acts h
      unfold Answered
      split
      · next hf =>
        obtain ⟨hfly, hlost⟩ := @Begun.sent purpose p acts (.ok status) h hf
        split
        · next hhash => exact hfly (by cases purpose <;> simp [Act.losesRestore, hhash])
        · next hhash =>
          cases purpose with
          | restore => exact hlost (by simp [Act.losesRestore, hf, hhash])
          | submission => exact hfly rfl
      · next hf =>
        have hf : mayForward (.ok status) = false := by simpa using hf
        refine h.quiet ⟨by simp, ?_, fun _ _ _ heq => by cases heq; exact hf⟩
        cases purpose <;> simp [Act.losesRestore, hf]
    refine Triple.bind_modify hrecord (Triple.lift (fun a ha acts h => ?_) fun _ h => by cases h)
    rw [show a = status by simpa [Except.mapError] using ha.symm]
    exact h

/-- Where `send` leaves its transaction: in flight, refused before the
network's queue, or with its answer lost. -/
def SendPost (purpose : Purpose) (p : Prepared) : Res ChainError Unit → List Act → Prop
  | .ok (), acts => InFlight p acts
  | .err .badSequence, acts | .err (.rejected _), acts => Begun acts
  | .err _, acts => Adrift purpose p acts
  | .running, _ => False

theorem readSend_triple {status : SendStatus} {again : Run ChainError Unit}
    (hagain : Triple env Begun again (SendPost purpose p)) :
    Triple env (Answered purpose p status) (s.readSend p status again) (SendPost purpose p) := by
  unfold Submitter.readSend
  obtain ⟨hash, outcome⟩ := status
  cases outcome with
  | pending | duplicate =>
    by_cases hhash : hash = p.hash
    · simp only [hhash, ↓reduceIte]
      exact Triple.pure fun _ h => by simpa [Answered, mayForward, SendPost] using h
    · simp only [hhash, ↓reduceIte]
      exact Triple.fail fun _ h => by simpa [Answered, mayForward, hhash, SendPost] using h
  | tryAgainLater => exact hagain.pre fun _ h => by simpa [Answered, mayForward] using h
  | error result code =>
    have hbegun : ∀ acts, Answered purpose p ⟨hash, .error result code⟩ acts → Begun acts :=
      fun _ h => by simpa [Answered, mayForward] using h
    cases result with
    | none => exact Triple.fail fun acts h => hbegun acts h
    | some result =>
      obtain ⟨fee, result⟩ := result
      cases result with
      | txBadSeq => exact Triple.fail fun acts h => hbegun acts h
      | other xdr => exact Triple.fail fun acts h => hbegun acts h

theorem send_triple : Triple env Begun (s.send purpose p) (SendPost purpose p) := by
  have herr : ∀ (error : ChainError) (acts : List Act),
      (Adrift purpose p acts ∧ ∃ e : RpcError, error = e.chain) → SendPost purpose p (.err error) acts := by
    rintro _ acts ⟨h, e, rfl⟩
    cases e <;> exact h
  unfold Submitter.send
  refine Triple.bind sendTransaction_triple (fun status => readSend_triple ?_) herr (fun _ h => h)
  refine Triple.bind_ask fun _ => ?_
  refine Triple.bind sendTransaction_triple (fun status => readSend_triple ?_) herr (fun _ h => h)
  exact Triple.fail fun _ h => h

/-- Where a wait leaves its transaction: settled, or unknown. -/
def WaitPost (purpose : Purpose) (p : Prepared) : Res ChainError TxOutcome → List Act → Prop
  | .ok outcome, acts => if outcome.isUnknown then Adrift purpose p acts else Begun acts
  | .err _, _ => False
  | .running, acts => InFlight p acts

theorem classify_terminal {status : TransactionStatus} {hash : TxHash} {window : LedgerWindow}
    {outcome : TxOutcome} (h : classify status hash window = some outcome) : outcome.isUnknown = false := by
  cases status with
  | success _ _ _ => cases h; rfl
  | failed _ _ _ _ => cases h; rfl
  | notFound latest oldest =>
    simp only [classify] at h
    split at h
    · cases h; rfl
    · cases h

/-- A transaction in flight that is no longer followed is adrift. -/
theorem InFlight.adrift {acts : List Act} {act : Act} (h : InFlight p acts) (hne : act ≠ .prepares)
    (hsent : ∀ purpose q answer, act ≠ .sent purpose q answer) (hnot : ¬Settles p act)
    (hloss : act.losesRestore = decide (purpose = .restore)) : Adrift purpose p (acts ++ [act]) := by
  rcases h.unsettling hne hsent hnot with ⟨hkept, h⟩ | ⟨hlost, h⟩
  · cases purpose with
    | restore => rw [hkept] at hloss; cases hloss
    | submission => exact h
  · cases purpose with
    | restore => exact h
    | submission => rw [hlost] at hloss; cases hloss

theorem untilDeadline_triple {sequence : Int} {deadline : Nat} :
    Triple env (InFlight p) (Submitter.pollOnce.untilDeadline purpose p.hash sequence p.window deadline)
      fun r acts => match r with
        | .ok none => InFlight p acts
        | .ok (some outcome) => WaitPost purpose p (.ok outcome) acts
        | .err _ => False
        | .running => False := by
  unfold Submitter.pollOnce.untilDeadline
  refine Triple.bind_ask fun t => ?_
  split
  · refine Triple.bind_modify (fun acts h => ?_) (Triple.pure fun acts h => h)
    show Adrift purpose p (acts ++ [.capped purpose p.hash p.window])
    refine h.adrift (by simp) (by simp) ?_ (by cases purpose <;> rfl)
    rintro ⟨_, _, heq, -⟩
    cases heq
  · exact Triple.bind_ask fun _ => Triple.pure fun _ h => h

theorem pollOnce_triple {sequence : Int} {deadline : Nat} :
    Triple env (InFlight p) (Submitter.pollOnce purpose p.hash sequence p.window deadline)
      fun r acts => match r with
        | .ok none => InFlight p acts
        | .ok (some outcome) => WaitPost purpose p (.ok outcome) acts
        | .err _ => False
        | .running => False := by
  unfold Submitter.pollOnce
  refine Triple.bind_ask fun t => ?_
  cases (env t).transaction p.hash with
  | ok status =>
    cases hc : classify status p.hash p.window with
    | some outcome =>
      have hsettles : (classify status p.hash p.window).isSome = true := by rw [hc]; rfl
      refine Triple.bind_modify (fun acts (h : InFlight p acts) => h.settled hsettles) ?_
      simp only [Except.map, hc]
      exact Triple.pure fun acts h => by simpa [WaitPost, classify_terminal hc] using h
    | none =>
      have hnot : ¬Settles p (.polled purpose p.hash p.window (.ok status)) := by
        rintro ⟨_, status', heq, hsome⟩
        cases heq
        rw [hc] at hsome
        cases hsome
      have hrecord : ∀ acts, InFlight p acts →
          InFlight p (acts ++ [.polled purpose p.hash p.window (.ok status)]) := by
        intro acts h
        rcases h.unsettling (by simp) (by simp) hnot with ⟨-, h⟩ | ⟨hlost, -⟩
        · exact h
        · cases purpose <;> cases hlost
      refine Triple.bind_modify hrecord ?_
      simp only [Except.map, hc]
      exact untilDeadline_triple
  | error e =>
    have hnot : ¬Settles p (.polled purpose p.hash p.window (.error e)) := by
      rintro ⟨_, _, heq, -⟩
      cases heq
    cases ht : isTransient e.chain with
    | true =>
      have hrecord : ∀ acts, InFlight p acts →
          InFlight p (acts ++ [.polled purpose p.hash p.window (.error e)]) := by
        intro acts h
        rcases h.unsettling (by simp) (by simp) hnot with ⟨-, h⟩ | ⟨hlost, -⟩
        · exact h
        · cases purpose <;> simp [Act.losesRestore, ht] at hlost
      refine Triple.bind_modify hrecord ?_
      simp only [Except.map, ht, ↓reduceIte]
      exact untilDeadline_triple
    | false =>
      have hrecord : ∀ acts, InFlight p acts →
          Adrift purpose p (acts ++ [.polled purpose p.hash p.window (.error e)]) := by
        intro acts h
        refine h.adrift (by simp) (by simp) hnot ?_
        cases purpose <;> simp [Act.losesRestore, ht]
      refine Triple.bind_modify hrecord ?_
      simp only [Except.map, ht, Bool.false_eq_true, ↓reduceIte]
      exact Triple.pure fun _ h => h

theorem waitFor_triple {sequence : Int} :
    Triple env (InFlight p) (s.waitFor fuel purpose p.hash sequence p.window) (WaitPost purpose p) := by
  unfold Submitter.waitFor
  refine Triple.bind_ask fun t => ?_
  refine Triple.repeatUntil (pollOnce_triple.conseq (fun _ h => h) fun r acts h => ?_) fun _ h => h
  cases r with
  | ok answer =>
    cases answer with
    | none => exact h
    | some outcome => exact h
  | err e => exact h.elim
  | running => exact h.elim

/-- A step of a submission: on an answer or an error the run stands where a
`prepare` may start. -/
def StepPost {α : Type} (Ok : List Act → Prop) : Res ChainError α → List Act → Prop
  | .ok _, acts => Ok acts
  | .err _, acts => Between acts
  | .running, acts => Exactly acts

theorem restore_triple {preamble : RestorePreamble} {sequence : Int} {latest inclusion : Nat} :
    Triple env Begun (s.restore fuel preamble sequence latest inclusion) (StepPost Begun) := by
  have herr : ∀ (e : ChainError) (acts : List Act), Begun acts → StepPost (α := Unit) Begun (.err e) acts :=
    fun _ _ h => h.between
  unfold Submitter.restore
  refine Triple.bind_lift (fun fee _ => ?_) (fun e _ => herr e)
  refine Triple.bind unsigned_triple (fun built => ?_) herr (fun _ h => h.between.exactly)
  refine Triple.bind_lift (fun envelope _ => ?_) (fun e _ => herr e)
  refine Triple.bind_lift (fun hash _ => ?_) (fun e _ => herr e)
  refine Triple.bind_caught send_triple (fun _ => ?_) (fun e => ?_) (fun _ h => h.elim)
  · refine Triple.bind waitFor_triple (fun outcome => ?_) (fun _ _ h => h.elim) (fun _ h => h.exactly)
    refine Triple.lift (fun _ hread acts h => ?_) (fun e hread acts h => ?_)
    · cases outcome with
      | succeeded _ _ _ => exact h
      | unknown _ _ _ | failed _ _ _ _ | expired _ _ _ => cases hread
    · cases outcome with
      | unknown _ _ _ => exact Lost.between h
      | succeeded _ _ _ | failed _ _ _ _ | expired _ _ _ => exact Begun.between h
  · cases e with
    | badSequence => exact Triple.fail fun _ h => Begun.between h
    | rejected what => exact Triple.fail fun _ h => Begun.between h
    | _ => exact Triple.fail fun _ h => Lost.between h

theorem restored_triple {operation : Operation} {sequence : Int} {inclusion latest : Nat}
    {call : SimulatedCall} :
    Triple env Begun (s.restored fuel operation sequence inclusion call latest) (StepPost Begun) := by
  unfold Submitter.restored
  cases call.restore with
  | none => exact Triple.pure fun _ h => h
  | some preamble =>
    refine Triple.bind restore_triple (fun _ => ?_) (fun _ _ h => h) (fun _ h => h)
    refine Triple.bind_lift (fun _ _ => ?_) (fun _ _ _ h => Begun.between h)
    refine Triple.bind simulateCall_triple (fun simulated => ?_) (fun _ _ h => Begun.between h)
      (fun _ h => (Begun.between h).exactly)
    dsimp only
    split
    · exact Triple.fail fun _ h => Begun.between h
    · exact Triple.pure fun _ h => h

/-- A `prepare` begins from wherever the last submission left the run, and
restores on the way at most once. -/
theorem prepare_triple {operation : Operation} {priority : Priority} :
    Triple env Between (s.prepare fuel operation priority) (StepPost Begun) := by
  have herr : ∀ (e : ChainError) (acts : List Act), Begun acts → StepPost (α := Prepared) Begun (.err e) acts :=
    fun _ _ h => h.between
  have hrun : ∀ acts : List Act, Begun acts → StepPost (α := Prepared) Begun .running acts :=
    fun _ h => h.between.exactly
  unfold Submitter.prepare
  refine Triple.bind_modify (fun _ h => Between.prepares h) ?_
  refine Triple.bind rpc_triple (fun account => ?_) herr hrun
  refine Triple.bind rpc_triple (fun fees => ?_) herr hrun
  refine Triple.bind_lift (fun sequence _ => ?_) (fun e _ => herr e)
  refine Triple.bind simulateCall_triple (fun simulated => ?_) herr hrun
  refine Triple.bind restored_triple (fun again => ?_) (fun _ _ h => h) (fun _ h => h)
  refine Triple.bind unsigned_triple (fun built => ?_) herr hrun
  refine Triple.bind_lift (fun tx _ => ?_) (fun e _ => herr e)
  refine Triple.bind_lift (fun envelope _ => ?_) (fun e _ => herr e)
  refine Triple.bind_lift (fun hash _ => ?_) (fun e _ => herr e)
  exact Triple.pure fun _ h => h

/-- A pause answers the flag, and nothing else happens in it. -/
theorem pause_triple {ε : Type} {P : List Act → Prop} :
    Triple env P (pauseUnlessShutdown : Run ε Bool) fun r acts =>
      P acts ∧ ∃ t, r = .ok (!(env t).shutdown) := by
  unfold pauseUnlessShutdown
  exact Triple.bind_ask fun _ => fun t _ h => ⟨h, t, rfl⟩

variable (hshutdown : ∀ t, (env t).shutdown = false)

include hshutdown

/-- With no shutdown requested a pause always goes on. -/
theorem bind_pause_triple {ε β : Type} {P : List Act → Prop} {f : Bool → Run ε β}
    {Q : Res ε β → List Act → Prop} (h : Triple env P (f true) Q) :
    Triple env P (pauseUnlessShutdown >>= f) Q := by
  refine Triple.bind pause_triple (fun goesOn => ?_) (fun _ _ h => ?_) (fun _ h => ?_)
  · refine fun t acts hacts => ?_
    obtain ⟨hp, t', heq⟩ := hacts
    rw [hshutdown t'] at heq
    cases heq
    exact h t acts hp
  · obtain ⟨-, _, heq⟩ := h
    cases heq
  · obtain ⟨-, _, heq⟩ := h
    cases heq

/-- While shutdown is not requested, an outcome still unknown is polled for
again. -/
theorem resolve_triple : Triple env (InFlight p) (resolve s fuel p) (StepPost Begun) := by
  unfold resolve
  refine Triple.repeatUntil ?_ fun _ h => h.exactly
  unfold resolveOnce
  refine Triple.bind waitFor_triple (fun outcome => ?_) (fun _ _ h => h.elim) (fun _ h => h.exactly)
  cases hu : outcome.isUnknown with
  | false =>
    simp only [Bool.false_eq_true, ↓reduceIte]
    exact Triple.pure fun acts h => by simpa [WaitPost, hu, StepPost] using h
  | true =>
    simp only [↓reduceIte]
    refine Triple.bind_ask fun t => ?_
    simp only [hshutdown t, Bool.false_eq_true, ↓reduceIte]
    refine bind_pause_triple hshutdown (Triple.pure fun acts h => ?_)
    simpa [WaitPost, hu, Adrift] using h

theorem attempt_triple {submission : Submission} :
    Triple env Between (attempt s fuel submission) (StepPost Begun) := by
  unfold attempt
  refine Triple.bind prepare_triple (fun p => ?_) (fun _ _ h => h) (fun _ h => h)
  refine Triple.bind_caught send_triple (fun _ => ?_) (fun e => ?_) (fun _ h => h.elim)
  · exact resolve_triple hshutdown
  · cases e with
    | badSequence => exact Triple.fail fun _ h => Begun.between h
    | rejected what => exact Triple.fail fun _ h => Begun.between h
    | _ => exact resolve_triple hshutdown

theorem submitUntilSettled_triple {submission : Submission} {retriesLeft : Nat} :
    Triple env Between (submitUntilSettled s fuel submission retriesLeft) fun r acts => match r with
      | .running => Exactly acts
      | _ => Between acts := by
  induction retriesLeft with
  | zero =>
    unfold submitUntilSettled
    refine Triple.bind_caught (attempt_triple hshutdown) (fun _ => ?_) (fun e => ?_) (fun _ h => h)
    · exact Triple.pure fun _ h => Begun.between h
    · exact Triple.fail fun _ h => h
  | succ retriesLeft ih =>
    unfold submitUntilSettled
    refine Triple.bind_caught (attempt_triple hshutdown) (fun _ => ?_) (fun e => ?_) (fun _ h => h)
    · exact Triple.pure fun _ h => Begun.between h
    · dsimp only
      split
      · exact bind_pause_triple hshutdown (ih.pre fun _ h => h)
      · exact Triple.fail fun _ h => h

theorem serve_triple {submission : Submission} :
    Triple env Between (serve s fuel submission) fun r acts => match r with
      | .running => Exactly acts
      | _ => Between acts := by
  unfold serve
  refine Triple.bind_ask fun t => ?_
  simp only [hshutdown t, Bool.false_eq_true, ↓reduceIte]
  have hanswered : ∀ (outcome : Except QueueError TxOutcome) (acts : List Act), Between acts →
      Between (acts ++ [Act.answered outcome]) := fun outcome acts h =>
    h.quiet ⟨by simp, rfl, by simp⟩ fun _ ⟨_, _, heq, _⟩ => by cases heq
  refine Triple.bind_caught (submitUntilSettled_triple hshutdown) (fun outcome => ?_) (fun e => ?_)
    (fun _ h => h)
  · exact fun t acts h => hanswered _ acts h
  · exact fun t acts h => hanswered _ acts h

theorem runQueueWith_triple {submissions : List Submission} :
    Triple env Between (runQueueWith s fuel submissions) fun _ acts => Exactly acts := by
  induction submissions with
  | nil => exact Triple.pure fun _ h => h.exactly
  | cons submission rest ih =>
    unfold runQueueWith
    exact Triple.bind (serve_triple hshutdown) (fun _ => ih) (fun e => e.elim) (fun _ h => h)

end Triples

/-- The record of a run of the queue from its start. -/
def queueRecord (s : Submitter) (fuel : Nat) (env : Nat → Moment) (submissions : List Submission) :
    List Act := (runQueueWith s fuel submissions env 0 []).2.2

/-- **One key, one transaction in flight, but for a lost restore.** While
shutdown is not requested, whatever the submissions and the answers, no
`prepare` starts with an earlier transaction unsettled if and only if no
`prepare` starts after a restore's outcome was lost. -/
theorem runQueueWith_oneInFlight_iff {s : Submitter} {fuel : Nat} {env : Nat → Moment}
    {submissions : List Submission} (hshutdown : ∀ t, (env t).shutdown = false) :
    OneInFlight (queueRecord s fuel env submissions) ↔
      ¬PreparesAfterLoss (queueRecord s fuel env submissions) := by
  refine runQueueWith_triple hshutdown 0 [] (.inr (.inr ⟨before_nil, by simp, ?_⟩))
  rintro p ⟨before, _, _, _, heq, -⟩
  simp at heq

/-! ## A restore whose send answer is lost -/

/-- A submitter whose hash is the sequence number's last byte. -/
def sampleSubmitter : Submitter where
  address := "GAUCTIONEER"
  config := { baseFee := 100, highFee := 1000, pollLedgers := 5, waitCap := 60 }
  sign := fun tx => .ok { tx, signatures := ["signature"] }
  hashOf := fun envelope => .ok ⟨Vector.replicate 32 (UInt8.ofNat envelope.tx.seqNum.toNat)⟩
  showOutcome := fun _ => "TxOutcome"
  showResult := fun _ => "TransactionResult"
  showCode := fun _ => "Option"
  showHash := fun _ => "TxHash"

def sampleOperation : Operation := .invokeHostFunction "new_auction" []

/-- Every simulation asks for a restore, and every `sendTransaction` times
out. -/
def sampleTimeout : Moment where
  account := fun _ => .ok { sequence := 7, latestLedger := 1000 }
  feeStats := .ok { sorobanPercentile70 := 200, sorobanPercentile90 := 400 }
  simulate := fun _ => .ok
    { latestLedger := 1000
      outcome := .success
        { auth := [], transactionData := "AAAA", minResourceFee := 50
          restore := some { transactionData := "BBBB", minResourceFee := 60 } } }
  send := fun _ => .error (.transport "operation timed out")
  transaction := fun _ => .ok (.notFound 1000 500)
  unixNow := some 1700000000
  instant := 0
  shutdown := false

/-- The restore both submissions' `prepare`s send: one sequence number. -/
def sampleRestore : Prepared where
  envelope :=
    { tx := { sourceAccount := "GAUCTIONEER", fee := 260, seqNum := 8, maxTime := 1700000300
              ledgerBounds := ⟨1000, 1006, by decide⟩, operation := .restoreFootprint
              sorobanData := some "BBBB" }
      signatures := ["signature"] }
  hash := ⟨Vector.replicate 32 8⟩
  sequence := 8
  window := ⟨1000, 1006, by decide⟩
  fee := 260
  resourceFee := 60

/-- The first submission's restore is lost with its send's answer, and the
second is prepared while it may still land: both build on sequence 8. -/
theorem runQueueWith_prepares_after_loss :
    ∃ (s : Submitter) (fuel : Nat) (env : Nat → Moment) (submissions : List Submission),
      (∀ t, (env t).shutdown = false) ∧ ¬OneInFlight (queueRecord s fuel env submissions) := by
  refine ⟨sampleSubmitter, 1, fun _ => sampleTimeout,
    [⟨sampleOperation, .normal, 0⟩, ⟨sampleOperation, .normal, 0⟩], fun _ => rfl, fun h => ?_⟩
  let lost : Act := .sent .restore sampleRestore (.error (.transport "operation timed out"))
  let told : Act := .answered (.error (.chain (.restoreUnknown sampleRestore.hash 8 sampleRestore.window)))
  have hrecord : queueRecord sampleSubmitter 1 (fun _ => sampleTimeout)
      [⟨sampleOperation, .normal, 0⟩, ⟨sampleOperation, .normal, 0⟩] =
      [.prepares, lost, told] ++ .prepares :: [lost, told] := by decide +kernel
  refine h _ _ _ hrecord rfl sampleRestore ⟨[.prepares], _, _, [told], rfl, rfl, ?_⟩
  rintro act hact ⟨_, _, heq, -⟩
  rw [List.mem_singleton.1 hact] at heq
  simp [told] at heq

/-- The same pool with an RPC that answers: the first simulation asks for a
restore, and what is sent lands. -/
def sampleServing : Moment :=
  { sampleTimeout with
    simulate := fun envelope => .ok
      { latestLedger := 1000
        outcome := .success
          { auth := [], transactionData := "AAAA", minResourceFee := 50
            restore := if envelope.tx.seqNum = 8
              then some { transactionData := "BBBB", minResourceFee := 60 } else none } }
    send := fun envelope => (sampleSubmitter.hashOf envelope).mapError (fun _ => .http 500) |>.map
      fun hash => { hash, outcome := .pending }
    transaction := fun _ => .ok (.success 1001 1001 none) }

/-- Two submissions, each with a restore that lands: the rule holds. -/
theorem runQueueWith_oneInFlight_serving :
    OneInFlight (queueRecord sampleSubmitter 3 (fun _ => sampleServing)
      [⟨sampleOperation, .normal, 0⟩, ⟨sampleOperation, .high, 2⟩]) := by
  refine (runQueueWith_oneInFlight_iff fun _ => rfl).2 (not_preparesAfterLoss ?_)
  have hall : (queueRecord sampleSubmitter 3 (fun _ => sampleServing)
      [⟨sampleOperation, .normal, 0⟩, ⟨sampleOperation, .high, 2⟩]).all
        (fun a => !a.losesRestore) = true := by decide +kernel
  intro a ha
  simpa using List.all_eq_true.1 hall a ha

end BlendLiquidator
