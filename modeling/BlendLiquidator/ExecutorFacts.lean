/-
The executor settles by what the chain did.

A fill and an unwind pass share their guards, their judgment and their
settlement and differ in what they record. Each of the shared parts has one
lemma that says how it can end and what it leaves on the record; a run is their
composition, and what is promised of a whole call is a property of the acts it
added.
-/
import BlendLiquidator.Executor

namespace BlendLiquidator

open Oracle

/-- The queue answered that the transaction landed, or may have. -/
def ExecAct.Paid : ExecAct → Prop
  | .enqueued _ (.ok (.succeeded _ _ _)) | .enqueued _ (.ok (.unknown _ _ _)) => True
  | _ => False

def ExecAct.isEnqueued : ExecAct → Bool
  | .enqueued _ _ => true
  | _ => false

def ExecAct.settlement : ExecAct → Option Settle
  | .settled how => some how
  | _ => none

/-- The reservation handed over is settled once: consumed where the queue
answered that the transaction landed or may have, released elsewhere. Where
there is none, nothing is settled. -/
def SettledByChain (settlement : Settlement) (before after : Inventory.Ledger) (acts : List ExecAct) : Prop :=
  match settlement with
  | .live reservation =>
    (acts.filterMap ExecAct.settlement = [.consume] ∧ (∃ act ∈ acts, act.Paid) ∧
      after = reservation.consume before) ∨
    (acts.filterMap ExecAct.settlement = [.release] ∧ (∀ act ∈ acts, ¬act.Paid) ∧
      after = reservation.release before)
  | .dryRun => acts.filterMap ExecAct.settlement = [] ∧ (∀ act ∈ acts, ¬act.Paid) ∧ after = before

/-- The contract let an operation through: it accepted it, or its footprint
has to be restored first by a submission that may be made. -/
def LetThrough (armed : Bool) (judgment : Except ChainError Judgment) : Prop :=
  judgment = .ok .accepted ∨ armed = true ∧ judgment = .ok .needsRestore

/-- What is on a record is there in order. `row` is what has to be written down
before anything is sent, where the operation has a row. -/
structure Audited (e : Executor) (armed : Bool) (row : Option FillRecord) (acts : List ExecAct) : Prop where
  /-- Only an armed executor sends, and only what was let through and written. -/
  sends : ∀ earlier submission answer later, acts = earlier ++ .enqueued submission answer :: later →
    e.dryRun = false ∧ e.submitter.isSome ∧
      (∃ judgment, LetThrough armed judgment ∧ .simulated submission.operation judgment ∈ earlier) ∧
      ∀ record, row = some record → ∃ fillId, .recordedFill record (.ok fillId) ∈ earlier
  once : (acts.filter ExecAct.isEnqueued).length ≤ 1
  /-- Nothing is recorded where the contract refused or did not answer. -/
  records : ∀ record answer, .recordedFill record answer ∈ acts →
    row = some record ∧ ∀ operation judgment, .simulated operation judgment ∈ acts → LetThrough armed judgment

/-- One call of the executor: it answers, and what it added to the record is
orderly and settles by the chain. -/
def Concluded {α : Type} (e : Executor) (armed : Bool) (row : Option FillRecord) (settlement : Settlement)
    (s : ExecState) (ran : Res Empty α × Nat × ExecState) : Prop :=
  ∃ answer acts, ran.1 = .ok answer ∧ ran.2.2.acts = s.acts ++ acts ∧ Audited e armed row acts ∧
    SettledByChain settlement s.ledger ran.2.2.ledger acts

/-! ## The judgment -/

theorem unsigned_stays (submitter : Submitter) {operation : Operation} {sequence : Int} {latest fee : Nat}
    {env : Nat → Moment} {I : List Act → Prop} :
    Stays env I (submitter.unsigned operation sequence latest fee) := by
  unfold Submitter.unsigned
  refine Stays.ask.bind fun now => Stays.lift.bind fun _ => ?_
  refine Stays.lift.bind fun max => Stays.lift.bind fun window => ?_
  exact Stays.pure

theorem rpc_stays {α : Type} {method : Moment → Except RpcError α} {env : Nat → Moment} {I : List Act → Prop} :
    Stays env I (rpc method) := by
  unfold rpc
  exact Stays.ask.bind fun answer => Stays.lift

/-- A simulation comes to an end. -/
theorem simulateOnly_stays (submitter : Submitter) (operation : Operation) {env : Nat → Moment}
    {I : List Act → Prop} : Stays env I (submitter.simulateOnly operation) := by
  unfold Submitter.simulateOnly
  refine rpc_stays.bind fun account => Stays.lift.bind fun sequence => ?_
  refine Stays.bind ?_ fun answer => Stays.lift
  apply Stays.caught
  unfold Submitter.simulateCall
  refine (unsigned_stays submitter).bind fun built => ?_
  exact rpc_stays.bind fun simulation => Stays.lift

/-- How a judgment ends, and what it leaves on the record. -/
inductive Judges (e : Executor) (armed : Bool) : Res ExecutorError Judged → List ExecAct → Prop
  | unsigned : Judges e armed (.ok .unsimulated) []
  | unencoded (error : ExecutorError) : Judges e armed (.err error) []
  | unanswered (operation : Operation) (error : ChainError) :
      Judges e armed (.err (.chain error)) [.simulated operation (.error error)]
  | accepted (operation : Operation) :
      Judges e armed (.ok (.accepted operation)) [.simulated operation (.ok .accepted)]
  | restored (ha : armed = true) (operation : Operation) :
      Judges e armed (.ok (.needsRestore operation)) [.simulated operation (.ok .needsRestore)]
  | unjudged (operation : Operation) :
      Judges e armed (.ok .unjudged) [.simulated operation (.ok .needsRestore)]
  | refused (operation : Operation) (contractError : Option Nat) (message : String) :
      Judges e armed (.ok (.refused contractError message))
        [.simulated operation (.ok (.refused contractError message))]

/-- The state `acts` later, the ledger as it was. -/
def ExecState.after (s : ExecState) (acts : List ExecAct) : ExecState := { s with acts := s.acts ++ acts }

@[simp] theorem ExecState.after_nil (s : ExecState) : s.after [] = s := by simp [ExecState.after]

@[simp] theorem ExecState.after_after (s : ExecState) (acts more : List ExecAct) :
    (s.after acts).after more = s.after (acts ++ more) := by simp [ExecState.after]

theorem execDid_triple {ε : Type} {env : Nat → ExecMoment} {s₀ : ExecState} (act : ExecAct) :
    Triple env (· = s₀) (execDid act : Exec ε Unit) fun r s => r = .ok () ∧ s = s₀.after [act] := by
  intro t s hs
  subst hs
  exact ⟨rfl, rfl⟩

/-- A call on the record, before what follows it. -/
theorem execCall_bind {ε ε' α β : Type} {env : Nat → ExecMoment} {s₀ : ExecState}
    {method : ExecMoment → Except ε α} {act : Except ε α → ExecAct} {f : Except ε α → Exec ε' β}
    {Q : Res ε' β → ExecState → Prop} (h : ∀ answer, Triple env (· = s₀.after [act answer]) (f answer) Q) :
    Triple env (· = s₀) (execCall method act >>= f) Q := by
  intro t s hs
  subst hs
  exact h (method (env t)) (t + 1) _ rfl

theorem judgeOperation_judges (e : Executor) (pool : String) (requests : List SubmitRequest) (armed : Bool)
    {env : Nat → ExecMoment} {s₀ : ExecState} :
    Triple env (· = s₀) (e.judgeOperation pool requests armed) fun r s =>
      ∃ acts, s = s₀.after acts ∧ Judges e armed r acts := by
  unfold Executor.judgeOperation
  cases hsub : e.submitter with
  | none =>
    refine Triple.pure fun s hs => ⟨[], ?_, .unsigned⟩
    simpa using hs
  | some submitter =>
    refine Triple.bind_lift (fun operation _ => ?_) (fun error _ s hs => ⟨[], by simpa using hs, .unencoded error⟩)
    have hsim : Triple env (· = s₀)
        (Prog.within ExecMoment.chain (fun _ => []) (fun _ s => s) (submitter.simulateOnly operation))
        fun r s => r ≠ .running ∧ s = s₀ := by
      refine Triple.within (R := fun _ r _ => r ≠ .running) (fun s _ => ?_) fun s r _ hs hr => ⟨hr, hs⟩
      exact Triple.conseq (simulateOnly_stays submitter operation) (fun _ _ => trivial) fun _ _ h => h.1
    refine Triple.bind_caught hsim (fun judgment => ?_) (fun error => ?_) fun s h => absurd rfl h.1
    · refine Triple.pre (Triple.bind (execDid_triple _) (fun _ => ?_) (fun _ _ h => nomatch h.1)
        fun _ h => nomatch h.1) fun s h => h.2
      refine Triple.bind_lift (fun judged hj => ?_) fun _ h => nomatch h
      cases hj
      cases judgment with
      | accepted => exact Triple.pure fun s hs => ⟨_, hs.2, .accepted operation⟩
      | refused contractError message =>
        exact Triple.pure fun s hs => ⟨_, hs.2, .refused operation contractError message⟩
      | needsRestore =>
        cases armed with
        | true => exact Triple.pure fun s hs => ⟨_, hs.2, .restored rfl operation⟩
        | false => exact Triple.pure fun s hs => ⟨_, hs.2, .unjudged operation⟩
    · refine Triple.pre (Triple.bind (execDid_triple _) (fun _ => ?_) (fun _ _ h => nomatch h.1)
        fun _ h => nomatch h.1) fun s h => h.2
      refine Triple.bind_lift (fun _ h => nomatch h) fun failure hf s hs => ?_
      cases hf
      exact ⟨_, hs.2, .unanswered operation error⟩

/-! ## The runs -/

/-- What steps 2 to 4 leave: nothing settled yet, and a settlement that is the
queue's answer's. -/
structure RunRecord (e : Executor) (armed : Bool) (row : Option FillRecord) (settle : Settle)
    (acts : List ExecAct) : Prop where
  orderly : Audited e armed row acts
  unsettled : acts.filterMap ExecAct.settlement = []
  paid : settle = .consume ↔ ∃ act ∈ acts, act.Paid

theorem settleOf_consume (submission : Submission) (outcome : TxOutcome) :
    settleOf outcome = .consume ↔ (ExecAct.enqueued submission (.ok outcome)).Paid := by
  cases outcome <;> simp [settleOf, ExecAct.Paid]

/-- What the queue is handed is on the record, and its answer alone says what
the reservation becomes. -/
theorem enqueue_triple {env : Nat → ExecMoment} {s₀ : ExecState} (submission : Submission) :
    Triple env (· = s₀) (enqueue submission) fun r s => ∃ answer landed settle, r = .ok (landed, settle) ∧
      (settle = .consume ↔ (ExecAct.enqueued submission answer).Paid) ∧
      s = s₀.after [.enqueued submission answer] := by
  unfold enqueue
  refine execCall_bind fun answer => ?_
  have hunpaid : ∀ error, Settle.release = .consume ↔ (ExecAct.enqueued submission (.error error)).Paid := by
    intro error
    simp [ExecAct.Paid]
  -- A submission that failed paid nothing, whichever of the four errors it is.
  split
  · exact Triple.pure fun s hs => ⟨_, _, _, rfl, settleOf_consume submission _, hs⟩
  · exact Triple.pure fun s hs => ⟨_, _, _, rfl, hunpaid _, hs⟩
  · exact Triple.pure fun s hs => ⟨_, _, _, rfl, hunpaid _, hs⟩
  · exact Triple.pure fun s hs => ⟨_, _, _, rfl, hunpaid _, hs⟩

theorem enqueue_bind {β : Type} {env : Nat → ExecMoment} {s₀ : ExecState} {submission : Submission}
    {f : Except ExecutorError Landed × Settle → Exec Empty β} {Q : Res Empty β → ExecState → Prop}
    (h : ∀ answer landed settle, (settle = .consume ↔ (ExecAct.enqueued submission answer).Paid) →
      Triple env (· = s₀.after [.enqueued submission answer]) (f (landed, settle)) Q) :
    Triple env (· = s₀) (enqueue submission >>= f) Q := by
  refine Triple.bind (enqueue_triple submission) (fun pair => ?_) (fun e => e.elim) fun s hs => ?_
  · intro t s ⟨answer, landed, settle, hr, hpaid, hs⟩
    cases hr
    exact h answer landed settle hpaid t s hs
  · obtain ⟨_, _, _, hr, _⟩ := hs
    cases hr

/-- A record with no submission on it sends nothing. -/
theorem RunRecord.unsent {e : Executor} {armed : Bool} {row : Option FillRecord} {acts : List ExecAct}
    (hnone : ∀ act ∈ acts, act.isEnqueued = false ∧ act.settlement = none)
    (hrecords : ∀ record answer, .recordedFill record answer ∈ acts → row = some record ∧
      ∀ operation judgment, .simulated operation judgment ∈ acts → LetThrough armed judgment) :
    RunRecord e armed row .release acts where
  orderly := by
    refine ⟨fun earlier submission answer later hacts => ?_, ?_, hrecords⟩
    · have hin : ExecAct.enqueued submission answer ∈ acts := by simp [hacts]
      cases (hnone _ hin).1
    · have hfilter : acts.filter ExecAct.isEnqueued = [] := by
        rw [List.filter_eq_nil_iff]
        intro act hact
        simp [(hnone act hact).1]
      simp [hfilter]
  unsettled := by
    rw [List.filterMap_eq_nil_iff]
    exact fun act hact => (hnone act hact).2
  paid := by
    refine ⟨nofun, fun ⟨act, hact, hpaid⟩ => ?_⟩
    have hsent := (hnone act hact).1
    cases act with
    | enqueued submission answer => cases hsent
    | simulated => exact hpaid.elim
    | recordedFill => exact hpaid.elim
    | attached => exact hpaid.elim
    | settled => exact hpaid.elim

/-- A list with one element of a kind splits at it in one way. -/
theorem split_unique {α : Type} {p : α → Bool} {before after earlier later : List α} {x y : α}
    (h : before ++ x :: after = earlier ++ y :: later) (hbefore : ∀ a ∈ before, p a = false)
    (hafter : ∀ a ∈ after, p a = false) (hy : p y = true) : before = earlier ∧ x = y := by
  rw [List.append_eq_append_iff] at h
  obtain ⟨gap, hearlier, hrest⟩ | ⟨gap, hbef, hrest⟩ := h
  · cases gap with
    | nil =>
      simp at hearlier hrest
      exact ⟨hearlier.symm, hrest.1⟩
    | cons z gap =>
      have hin : y ∈ after := by
        simp at hrest
        simp [hrest.2]
      rw [hafter y hin] at hy
      cases hy
  · cases gap with
    | nil =>
      simp at hbef hrest
      exact ⟨hbef, hrest.1.symm⟩
    | cons z gap =>
      have hin : y ∈ before := by
        simp at hrest
        simp [hbef, hrest.1]
      rw [hbefore y hin] at hy
      cases hy

/-- What is written down of a row before anything is sent. -/
inductive Written : Option FillRecord → List ExecAct → Prop
  | nothing : Written none []
  | row (record : FillRecord) (fillId : Int) : Written (some record) [.recordedFill record (.ok fillId)]

/-- What is written down once the chain has answered. -/
inductive Named : List ExecAct → Prop
  | nothing : Named []
  | attached (fillId : Int) (hash : TxHash) (answer : Except StoreError Bool) : Named [.attached fillId hash answer]

/-- A record of one submission, of what was let through and written. -/
theorem RunRecord.sent {e : Executor} {armed : Bool} {row : Option FillRecord} {settle : Settle}
    {judgment : Except ChainError Judgment} {submission : Submission} {answer : Except QueueError TxOutcome}
    {written named : List ExecAct} (hsend : e.dryRun = false ∧ e.submitter.isSome = true)
    (hlet : LetThrough armed judgment) (hwritten : Written row written) (hnamed : Named named)
    (hpaid : settle = .consume ↔ (ExecAct.enqueued submission answer).Paid) :
    RunRecord e armed row settle
      ((.simulated submission.operation judgment :: written) ++ .enqueued submission answer :: named) := by
  have hbefore : ∀ act ∈ ExecAct.simulated submission.operation judgment :: written, act.isEnqueued = false := by
    cases hwritten <;> simp [ExecAct.isEnqueued]
  have hafter : ∀ act ∈ named, act.isEnqueued = false := by
    cases hnamed <;> simp [ExecAct.isEnqueued]
  refine ⟨⟨fun earlier sub ans later hacts => ?_, ?_, fun record ans hin => ?_⟩, ?_, ?_⟩
  · obtain ⟨rfl, hsub⟩ := split_unique hacts hbefore hafter rfl
    cases hsub
    refine ⟨hsend.1, hsend.2, ⟨judgment, hlet, List.mem_cons_self⟩, fun record hrow => ?_⟩
    cases hwritten with
    | nothing => cases hrow
    | row written fillId =>
      cases hrow
      exact ⟨fillId, by simp⟩
  · cases hwritten <;> cases hnamed <;> exact le_refl 1
  · constructor
    · cases hwritten <;> cases hnamed <;> simp_all
    · intro operation judged hjudged
      have heq : judged = judgment := by
        cases hwritten <;> cases hnamed <;> simp_all
      rwa [heq]
  · cases hwritten <;> cases hnamed <;> simp [ExecAct.settlement]
  · rw [hpaid]
    cases hwritten <;> cases hnamed <;> simp [ExecAct.Paid]

/-- A judgment on the record. -/
def ExecAct.isSimulated : ExecAct → Bool
  | .simulated _ _ => true
  | _ => false

theorem Judges.simulated {e : Executor} {armed : Bool} {r : Res ExecutorError Judged} {acts : List ExecAct}
    (h : Judges e armed r acts) : ∀ act ∈ acts, act.isSimulated = true := by
  cases h <;> simp [ExecAct.isSimulated]

/-- A record of judgments alone. -/
theorem RunRecord.judged {e : Executor} {armed : Bool} {row : Option FillRecord} {acts : List ExecAct}
    (h : ∀ act ∈ acts, act.isSimulated = true) : RunRecord e armed row .release acts := by
  refine RunRecord.unsent (fun act hact => ?_) fun record answer hin => ?_
  · have hsim := h act hact
    cases act with
    | simulated => exact ⟨rfl, rfl⟩
    | enqueued => cases hsim
    | recordedFill => cases hsim
    | attached => cases hsim
    | settled => cases hsim
  · cases h _ hin

/-- A record of a row, written or not, that nothing was sent of. -/
theorem RunRecord.kept {e : Executor} {armed : Bool} {record : FillRecord} {answer : Except StoreError Int}
    {acts : List ExecAct} (h : ∀ act ∈ acts, ∃ operation judgment, act = .simulated operation judgment ∧
      LetThrough armed judgment) :
    RunRecord e armed (some record) .release (acts ++ [.recordedFill record answer]) := by
  refine RunRecord.unsent (fun act hact => ?_) fun written given hin => ⟨?_, fun operation judgment hsim => ?_⟩
  · rw [List.mem_append, List.mem_singleton] at hact
    obtain hact | rfl := hact
    · obtain ⟨_, _, rfl, _⟩ := h act hact
      exact ⟨rfl, rfl⟩
    · exact ⟨rfl, rfl⟩
  · rw [List.mem_append, List.mem_singleton] at hin
    obtain hin | hin := hin
    · obtain ⟨_, _, hact, _⟩ := h _ hin
      cases hact
    · cases hin
      rfl
  · rw [List.mem_append, List.mem_singleton] at hsim
    obtain hsim | hsim := hsim
    · obtain ⟨_, _, hact, hlet⟩ := h _ hsim
      cases hact
      exact hlet
    · cases hsim

/-- How a fill's judgment ends. -/
inductive JudgesFill (armed : Bool) : Res ExecutorError (Except ExecOutcome (Option Operation × Bool)) →
    List ExecAct → Prop
  | failed (error : ExecutorError) {acts : List ExecAct} (h : ∀ act ∈ acts, act.isSimulated = true) :
      JudgesFill armed (.err error) acts
  | refused (outcome : ExecOutcome) {acts : List ExecAct} (h : ∀ act ∈ acts, act.isSimulated = true) :
      JudgesFill armed (.ok (.error outcome)) acts
  | unsigned : JudgesFill armed (.ok (.ok (none, false))) []
  | passed (operation : Operation) (simulated : Bool) {judgment : Except ChainError Judgment}
      (hlet : LetThrough armed judgment) :
      JudgesFill armed (.ok (.ok (some operation, simulated))) [.simulated operation judgment]

theorem judge_judges (e : Executor) (plan : FillPlan) (armed : Bool) {env : Nat → ExecMoment} {s₀ : ExecState} :
    Triple env (· = s₀) (e.judge plan armed) fun r s =>
      ∃ acts, s = s₀.after acts ∧ JudgesFill armed r acts := by
  unfold Executor.judge
  refine Triple.bind_lift (fun requests _ => ?_) fun error _ s hs => ⟨[], by simpa using hs, .failed error (by simp)⟩
  refine Triple.bind (judgeOperation_judges e plan.pool requests armed) (fun judged => ?_)
    (fun error s ⟨acts, hs, hj⟩ => ⟨acts, hs, .failed error hj.simulated⟩) fun s ⟨_, _, hj⟩ => nomatch hj
  intro t s ⟨acts, hs, hj⟩
  cases hj with
  | unsigned => exact ⟨_, hs, .unsigned⟩
  | accepted operation => exact ⟨_, hs, .passed operation true (.inl rfl)⟩
  | restored ha operation => exact ⟨_, hs, .passed operation false (.inr ⟨ha, rfl⟩)⟩
  | unjudged operation => exact ⟨_, hs, .refused _ (by simp [ExecAct.isSimulated])⟩
  | refused operation contractError message => exact ⟨_, hs, .refused _ (by simp [ExecAct.isSimulated])⟩

/-- What a run leaves, whatever it answers. -/
def Ran {α : Type} (e : Executor) (armed : Bool) (row : Option FillRecord) (s₀ : ExecState)
    (r : Res Empty (α × Settle)) (s : ExecState) : Prop :=
  ∃ answer settle acts, r = .ok (answer, settle) ∧ s = s₀.after acts ∧ RunRecord e armed row settle acts

theorem submitRecorded_record (e : Executor) (plan : FillPlan) (fillId : Int) (simulated : Bool)
    (operation : Operation) {armed : Bool} {judgment : Except ChainError Judgment}
    (hsend : e.dryRun = false ∧ e.submitter.isSome = true) (hlet : LetThrough armed judgment)
    {env : Nat → ExecMoment} {s₀ : ExecState} :
    Triple env
      (· = s₀.after [.simulated operation judgment, .recordedFill (e.fillRecord plan) (.ok fillId)])
      (e.submitRecorded plan fillId simulated operation) (Ran e armed (some (e.fillRecord plan)) s₀) := by
  have hwritten := Written.row (e.fillRecord plan) fillId
  unfold Executor.submitRecorded
  refine enqueue_bind fun answer landed settle hpaid => ?_
  have hsilent := RunRecord.sent hsend hlet hwritten .nothing hpaid
  simp only [ExecState.after_after]
  cases landed with
  | error error => exact Triple.pure fun s hs => ⟨_, _, _, rfl, hs, hsilent⟩
  | ok landed =>
    cases landed with
    | stale => exact Triple.pure fun s hs => ⟨_, _, _, rfl, hs, hsilent⟩
    | refused contractError message => exact Triple.pure fun s hs => ⟨_, _, _, rfl, hs, hsilent⟩
    | outcome outcome =>
      -- The settlement was decided before the hash is written.
      refine execCall_bind fun attached => ?_
      have hnamed := RunRecord.sent hsend hlet hwritten (.attached fillId outcome.hash attached) hpaid
      simp only [ExecState.after_after]
      cases attached with
      | ok found => exact Triple.pure fun s hs => ⟨_, _, _, rfl, hs, hnamed⟩
      | error error => exact Triple.pure fun s hs => ⟨_, _, _, rfl, hs, hnamed⟩

/-- Steps 2 to 4 of a fill. -/
theorem run_record (e : Executor) (plan : FillPlan) (armed : Bool)
    (hsend : armed = true → e.dryRun = false ∧ e.submitter.isSome = true)
    {env : Nat → ExecMoment} {s₀ : ExecState} :
    Triple env (· = s₀) (e.run plan armed) (Ran e armed (some (e.fillRecord plan)) s₀) := by
  unfold Executor.run
  refine Triple.bind_caught (judge_judges e plan armed) (fun judged => ?_) (fun error => ?_)
    fun s ⟨_, _, hj⟩ => nomatch hj
  · refine Triple.ex fun acts => ?_
    cases judged with
    | error outcome =>
      refine Triple.pure fun s ⟨hs, hj⟩ => ⟨_, _, _, rfl, hs, RunRecord.judged ?_⟩
      cases hj with
      | refused _ h => exact h
    | ok passed =>
      obtain ⟨operation, simulated⟩ := passed
      refine Triple.pre (P := fun s => JudgesFill armed (.ok (.ok (operation, simulated))) acts ∧ s = s₀.after acts)
        (Triple.given fun hj => ?_) fun s h => ⟨h.2, h.1⟩
      refine execCall_bind fun written => ?_
      have hkept : ∀ answer, RunRecord e armed (some (e.fillRecord plan)) .release
          (acts ++ [.recordedFill (e.fillRecord plan) answer]) := by
        intro answer
        refine RunRecord.kept fun act hact => ?_
        cases hj with
        | unsigned => cases hact
        | passed _ _ hlet =>
          rw [List.mem_singleton] at hact
          exact ⟨_, _, hact, hlet⟩
      simp only [ExecState.after_after]
      split
      · exact Triple.pure fun s hs => ⟨_, _, _, rfl, hs, hkept _⟩
      · split
        · cases hj with
          | passed _ _ hlet => exact submitRecorded_record e plan _ simulated _ (hsend rfl) hlet
        · exact Triple.pure fun s hs => ⟨_, _, _, rfl, hs, hkept _⟩
  · refine Triple.pure fun s ⟨acts, hs, hj⟩ => ⟨_, _, _, rfl, hs, RunRecord.judged ?_⟩
    cases hj with
    | failed _ h => exact h

/-- A pass that was let through is sent where it may be. -/
theorem submit_record (e : Executor) (armed : Bool) (operation : Operation) (simulated : Bool)
    {judgment : Except ChainError Judgment}
    (hsend : armed = true → e.dryRun = false ∧ e.submitter.isSome = true) (hlet : LetThrough armed judgment)
    {env : Nat → ExecMoment} {s₀ : ExecState} :
    Triple env (· = s₀.after [.simulated operation judgment])
      (Executor.runUnwind.submit armed operation simulated) (Ran e armed none s₀) := by
  unfold Executor.runUnwind.submit
  split
  · rename_i harmed
    refine enqueue_bind fun answer landed settle hpaid => ?_
    have hsent := RunRecord.sent (hsend harmed) hlet .nothing .nothing hpaid
    simp only [ExecState.after_after]
    cases landed with
    | error error => exact Triple.pure fun s hs => ⟨_, _, _, rfl, hs, hsent⟩
    | ok landed =>
      cases landed with
      | stale => exact Triple.pure fun s hs => ⟨_, _, _, rfl, hs, hsent⟩
      | refused contractError message => exact Triple.pure fun s hs => ⟨_, _, _, rfl, hs, hsent⟩
      | outcome outcome => exact Triple.pure fun s hs => ⟨_, _, _, rfl, hs, hsent⟩
  · refine Triple.pure fun s hs => ⟨_, _, _, rfl, hs, RunRecord.judged ?_⟩
    simp [ExecAct.isSimulated]

/-- Steps 2 to 4 of an unwind. -/
theorem runUnwind_record (e : Executor) (pool : String) (plan : UnwindPlan) (armed : Bool)
    (hsend : armed = true → e.dryRun = false ∧ e.submitter.isSome = true)
    {env : Nat → ExecMoment} {s₀ : ExecState} :
    Triple env (· = s₀) (e.runUnwind pool plan armed) (Ran e armed none s₀) := by
  unfold Executor.runUnwind
  refine Triple.bind_caught (judgeOperation_judges e pool _ armed) (fun judged => ?_) (fun error => ?_)
    fun s ⟨_, _, hj⟩ => nomatch hj
  · intro t s ⟨acts, hs, hj⟩
    have hjudged : RunRecord e armed none .release acts := RunRecord.judged hj.simulated
    cases hj with
    | unsigned => exact ⟨_, _, _, rfl, hs, hjudged⟩
    | accepted operation => exact submit_record e armed operation true hsend (.inl rfl) t s hs
    | restored ha operation => exact submit_record e armed operation false hsend (.inr ⟨ha, rfl⟩) t s hs
    | unjudged operation => exact ⟨_, _, _, rfl, hs, hjudged⟩
    | refused operation contractError message => exact ⟨_, _, _, rfl, hs, hjudged⟩
  · exact Triple.pure fun s ⟨acts, hs, hj⟩ => ⟨_, _, _, rfl, hs, RunRecord.judged hj.simulated⟩

/-! ## A whole call -/

/-- The reservation a settlement carries. -/
def Settlement.reservation : Settlement → Option Inventory.Reservation
  | .live reservation => some reservation
  | .dryRun => none

theorem Audited.settled {e : Executor} {armed : Bool} {row : Option FillRecord} {acts : List ExecAct}
    (h : Audited e armed row acts) (how : Settle) : Audited e armed row (acts ++ [.settled how]) := by
  refine ⟨fun earlier submission answer later hacts => ?_, ?_, fun record answer hin => ?_⟩
  · rcases List.eq_nil_or_concat later with rfl | ⟨rest, last, rfl⟩
    · rw [List.append_inj_left' hacts rfl] at h
      have := List.append_inj_right' hacts rfl
      simp at this
    · rw [List.concat_eq_append, ← List.cons_append, ← List.append_assoc] at hacts
      exact h.sends earlier submission answer rest (List.append_inj_left' hacts rfl)
  · simpa [List.filter_append, ExecAct.isEnqueued] using h.once
  · obtain ⟨hrow, hjudged⟩ := h.records record answer (by simpa using hin)
    exact ⟨hrow, fun operation judgment hsim => hjudged operation judgment (by simpa using hsim)⟩

/-- What is settled at the end of a run is settled by the chain. -/
theorem settleReservation_concludes {α : Type} {e : Executor} {armed : Bool} {row : Option FillRecord}
    {settle : Settle} {acts : List ExecAct} (settlement : Settlement) (h : RunRecord e armed row settle acts)
    (hdry : settlement.reservation = none → ∀ act ∈ acts, ¬act.Paid) (answer : α)
    (env : Nat → ExecMoment) (t : Nat) (s₀ : ExecState) :
    Concluded e armed row settlement s₀
      ((do settleReservation settlement.reservation settle; pure answer : Exec Empty α) env t (s₀.after acts)) := by
  cases settlement with
  | dryRun =>
    refine ⟨answer, acts, ?_⟩
    have hunpaid := hdry rfl
    cases settle with
    | consume => exact ⟨rfl, rfl, h.orderly, h.unsettled, hunpaid, rfl⟩
    | release => exact ⟨rfl, rfl, h.orderly, h.unsettled, hunpaid, rfl⟩
  | live reservation =>
    cases settle with
    | consume =>
      refine ⟨answer, acts ++ [.settled .consume], rfl, ?_, h.orderly.settled _, .inl ⟨?_, ?_, rfl⟩⟩
      · exact List.append_assoc _ _ _
      · rw [List.filterMap_append, h.unsettled]
        rfl
      · obtain ⟨act, hact, hpaid⟩ := h.paid.1 rfl
        exact ⟨act, List.mem_append_left _ hact, hpaid⟩
    | release =>
      refine ⟨answer, acts ++ [.settled .release], rfl, ?_, h.orderly.settled _, .inr ⟨?_, fun act hact => ?_, rfl⟩⟩
      · exact List.append_assoc _ _ _
      · rw [List.filterMap_append, h.unsettled]
        rfl
      · rw [List.mem_append, List.mem_singleton] at hact
        obtain hact | rfl := hact
        · intro hpaid
          cases h.paid.2 ⟨act, hact, hpaid⟩
        · exact id

/-- A dry run pays nothing. -/
theorem Audited.unpaid {e : Executor} {armed : Bool} {row : Option FillRecord} {acts : List ExecAct}
    (h : Audited e armed row acts) (hdry : e.dryRun = true) : ∀ act ∈ acts, ¬act.Paid := by
  intro act hact hpaid
  cases act with
  | enqueued submission answer =>
    obtain ⟨earlier, later, rfl⟩ := List.append_of_mem hact
    rw [(h.sends earlier submission answer later rfl).1] at hdry
    cases hdry
  | simulated => exact hpaid
  | recordedFill => exact hpaid
  | attached => exact hpaid
  | settled => exact hpaid

/-- A call that only settles, by a release. -/
theorem concluded_unrun {α : Type} (e : Executor) (armed : Bool) (row : Option FillRecord) (settlement : Settlement)
    (answer : α) (env : Nat → ExecMoment) (t : Nat) (s₀ : ExecState) :
    Concluded e armed row settlement s₀
      ((do release settlement.reservation; pure answer : Exec Empty α) env t s₀) := by
  have hrun : RunRecord e armed row .release [] := RunRecord.judged (by simp)
  have h := settleReservation_concludes settlement hrun (by simp) answer env t s₀
  rwa [ExecState.after_nil] at h

/-- A queue is refused with the reservation released. -/
theorem armedGuard_cases (e : Executor) (armed : Bool) (reservation : Option Inventory.Reservation)
    (env : Nat → ExecMoment) (t : Nat) (s : ExecState) :
    (Executor.guard.armedGuard e armed reservation env t s = (.ok (.ok reservation), t, s) ∧
      (armed = true → e.dryRun = false ∧ e.submitter.isSome = true)) ∨
    ∃ error, Executor.guard.armedGuard e armed reservation env t s =
      (do release reservation; pure (.error error) : Exec Empty _) env t s := by
  unfold Executor.guard.armedGuard
  by_cases hdry : armed = true ∧ e.dryRun = true
  · rw [if_pos hdry]
    exact .inr ⟨_, rfl⟩
  · rw [if_neg hdry]
    by_cases hsigned : armed = true ∧ e.submitter.isNone = true
    · rw [if_pos hsigned]
      exact .inr ⟨_, rfl⟩
    · rw [if_neg hsigned]
      refine .inl ⟨rfl, fun harmed => ⟨?_, ?_⟩⟩
      · simpa [harmed] using hdry
      · simpa [harmed, Option.isSome_iff_ne_none] using hsigned

/-- The guards let a call go on, or answer with the reservation released. -/
theorem guard_cases (e : Executor) (settlement : Settlement) (armed : Bool) (env : Nat → ExecMoment) (t : Nat)
    (s : ExecState) :
    (e.guard settlement armed env t s = (.ok (.ok settlement.reservation), t, s) ∧
      (settlement.reservation = none → e.dryRun = true) ∧
      (armed = true → e.dryRun = false ∧ e.submitter.isSome = true)) ∨
    ∃ error, e.guard settlement armed env t s =
      (do release settlement.reservation; pure (.error error) : Exec Empty _) env t s := by
  obtain hdry | hdry := Bool.eq_false_or_eq_true e.dryRun
  · cases settlement with
    | live reservation =>
      right
      unfold Executor.guard
      rw [hdry]
      exact ⟨_, rfl⟩
    | dryRun =>
      have hguard : e.guard .dryRun armed = Executor.guard.armedGuard e armed none := by
        unfold Executor.guard
        rw [hdry]
      rw [hguard]
      obtain hgo | hstop := armedGuard_cases e armed none env t s
      · exact .inl ⟨hgo.1, fun _ => hdry, hgo.2⟩
      · exact .inr hstop
  · cases settlement with
    | live reservation =>
      have hguard : e.guard (.live reservation) armed = Executor.guard.armedGuard e armed (some reservation) := by
        unfold Executor.guard
        rw [hdry]
      rw [hguard]
      obtain hgo | hstop := armedGuard_cases e armed (some reservation) env t s
      · exact .inl ⟨hgo.1, nofun, hgo.2⟩
      · exact .inr hstop
    | dryRun =>
      right
      unfold Executor.guard
      rw [hdry]
      exact ⟨_, rfl⟩

/-- A call whose guards let it go on concludes as its run does. -/
theorem Ran.concludes {α : Type} {e : Executor} {armed : Bool} {row : Option FillRecord} {settlement : Settlement}
    {s : ExecState} {run : Exec Empty (α × Settle)} {env : Nat → ExecMoment} {t : Nat}
    (hran : Triple env (· = s) run (Ran e armed row s)) (hdry : settlement.reservation = none → e.dryRun = true) :
    Concluded e armed row settlement s
      ((do let (answer, settled) ← run; settleReservation settlement.reservation settled; pure answer :
        Exec Empty α) env t s) := by
  obtain ⟨answer, settle, acts, hanswer, hs, hrecord⟩ := hran t s rfl
  have hunpaid : settlement.reservation = none → ∀ act ∈ acts, ¬act.Paid := fun h => hrecord.orderly.unpaid (hdry h)
  have hend := settleReservation_concludes settlement hrecord hunpaid answer env (run env t s).2.1 s
  rw [← hs] at hend
  show Concluded e armed row settlement s (Prog.bind run _ env t s)
  unfold Prog.bind
  generalize run env t s = out at hanswer hend ⊢
  obtain ⟨r, t', s'⟩ := out
  simp only at hanswer
  subst hanswer
  exact hend

/-- A call behind the guards concludes where what follows them does. -/
theorem guard_concludes {α : Type} {e : Executor} {settlement : Settlement} {armed : Bool} {row : Option FillRecord}
    {env : Nat → ExecMoment} {t : Nat} {s : ExecState}
    {f : Option Inventory.Reservation → Exec Empty (Except ExecutorError α)}
    (hgo : (settlement.reservation = none → e.dryRun = true) →
      (armed = true → e.dryRun = false ∧ e.submitter.isSome = true) →
      Concluded e armed row settlement s (f settlement.reservation env t s)) :
    Concluded e armed row settlement s ((do
      match ← e.guard settlement armed with
      | .error error => pure (.error error)
      | .ok reservation => f reservation : Exec Empty _) env t s) := by
  show Concluded e armed row settlement s (Prog.bind (e.guard settlement armed) _ env t s)
  unfold Prog.bind
  obtain ⟨hguard, hdry, hsend⟩ | ⟨error, hguard⟩ := guard_cases e settlement armed env t s
  · rw [hguard]
    exact hgo hdry hsend
  · rw [hguard]
    have hstop := concluded_unrun e armed row settlement (Except.error error : Except ExecutorError α) env t s
    cases settlement with
    | live reservation => exact hstop
    | dryRun => exact hstop

theorem execute_concludes (e : Executor) (plan : FillPlan) (settlement : Settlement) (armed : Bool)
    (env : Nat → ExecMoment) (t : Nat) (s : ExecState) :
    Concluded e armed (some (e.fillRecord plan)) settlement s (e.execute plan settlement armed env t s) :=
  guard_concludes fun hdry hsend => Ran.concludes (run_record e plan armed hsend) hdry

theorem unwind_concludes (e : Executor) (pool : String) (plan : UnwindPlan) (settlement : Settlement) (armed : Bool)
    (env : Nat → ExecMoment) (t : Nat) (s : ExecState) :
    Concluded e armed none settlement s (e.unwind pool plan settlement armed env t s) := by
  refine guard_concludes fun hdry hsend => ?_
  by_cases hidle : plan.isIdle = true
  · rw [if_pos hidle]
    exact concluded_unrun e armed none settlement _ env t s
  · rw [if_neg hidle]
    exact Ran.concludes (runUnwind_record e pool plan armed hsend) hdry

/-- The executor settles by what the chain did: on every path of a fill and of
an unwind pass, whatever the store, the contract and the queue answer. -/
theorem settles_by_chain (e : Executor) (settlement : Settlement) (armed : Bool) (env : Nat → ExecMoment) (t : Nat)
    (s : ExecState) :
    (∀ plan, Concluded e armed (some (e.fillRecord plan)) settlement s (e.execute plan settlement armed env t s)) ∧
    ∀ pool plan, Concluded e armed none settlement s (e.unwind pool plan settlement armed env t s) := by
  constructor
  · intro plan
    exact execute_concludes e plan settlement armed env t s
  · intro pool plan
    exact unwind_concludes e pool plan settlement armed env t s

end BlendLiquidator
