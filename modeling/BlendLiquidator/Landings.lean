/-
The executor's answer says what landed.

Where the queue answered that a transaction landed, or may have, a fill answers
`recorded` with that outcome and an unwind `submitted`, unless the write of the
hash failed, which ends the caller's run. Every other answer means that nothing
landed, and that the wallet's balances are as they were.
-/
import BlendLiquidator.ExecutorFacts
import BlendLiquidator.Filler

namespace BlendLiquidator

open Oracle

/-- The ledger a submission landed in, `none` where it may yet. -/
def ExecAct.landing : ExecAct → Option (Option Nat)
  | .enqueued _ (.ok outcome) => Filler.landedAt outcome
  | _ => none

/-- What the answer of a fill says landed. -/
def ExecOutcome.landing : ExecOutcome → Option (Option Nat)
  | .recorded fill => fill.submission.bind Filler.landedAt
  | .replan _ | .refused _ | .stale => none

/-- What the answer of an unwind says landed. -/
def UnwindOutcome.landing : UnwindOutcome → Option (Option Nat)
  | .submitted outcome => Filler.landedAt outcome
  | .planned _ | .refused _ | .stale => none

/-- An answer says what landed; none that failed says anything did. -/
def saysLanded {α : Type} (landing : α → Option (Option Nat)) : Except ExecutorError α → Option (Option Nat)
  | .ok outcome => landing outcome
  | .error _ => none

/-- What landed among the acts of one call. -/
def landed (acts : List ExecAct) : Option (Option Nat) := acts.findSome? ExecAct.landing

/-- The answer is the whole of what landed, or the store failed. -/
def Reports {α : Type} (landing : α → Option (Option Nat)) (answer : Except ExecutorError α)
    (acts : List ExecAct) : Prop :=
  landed acts = saysLanded landing answer ∨ ∃ error, answer = .error (.store error)

theorem ExecAct.landing_of_not_paid {act : ExecAct} (h : ¬act.Paid) : act.landing = none := by
  unfold ExecAct.landing
  split
  · next outcome => cases outcome <;> simp_all [ExecAct.Paid, Filler.landedAt]
  · rfl

theorem ExecAct.paid_of_landing {act : ExecAct} (h : act.landing = none) : ¬act.Paid := by
  intro hpaid
  cases act with
  | enqueued submission answer =>
    cases answer with
    | error error => exact hpaid
    | ok outcome => cases outcome <;> simp_all [ExecAct.landing, Filler.landedAt, ExecAct.Paid]
  | simulated => exact hpaid
  | recordedFill => exact hpaid
  | attached => exact hpaid
  | settled => exact hpaid

theorem landed_eq_none {acts : List ExecAct} : landed acts = none ↔ ∀ act ∈ acts, ¬act.Paid := by
  unfold landed
  rw [List.findSome?_eq_none_iff]
  constructor
  · intro h act hact
    exact ExecAct.paid_of_landing (h act hact)
  · intro h act hact
    exact ExecAct.landing_of_not_paid (h act hact)

/-! ## The runs -/

/-- A run leaves the ledger alone, and its answer reports what landed. -/
def RunReports {α : Type} (landing : α → Option (Option Nat)) (s₀ : ExecState)
    (r : Res Empty (Except ExecutorError α × Settle)) (s : ExecState) : Prop :=
  ∃ answer settle acts, r = .ok (answer, settle) ∧ s = s₀.after acts ∧ Reports landing answer acts

theorem reports_none {α : Type} {landing : α → Option (Option Nat)} {answer : Except ExecutorError α}
    {acts : List ExecAct} (hacts : landed acts = none) (hnone : saysLanded landing answer = none) :
    Reports landing answer acts := .inl (hacts.trans hnone.symm)

theorem landed_simulated {acts : List ExecAct} (h : ∀ act ∈ acts, act.isSimulated = true) : landed acts = none := by
  rw [landed_eq_none]
  intro act hact hpaid
  have hsim := h act hact
  cases act with
  | simulated => exact hpaid
  | enqueued => cases hsim
  | recordedFill => exact hpaid
  | attached => exact hpaid
  | settled => exact hpaid

/-- How the queue's answer reads. -/
inductive Reads : Except QueueError TxOutcome → Except ExecutorError Landed → Prop
  | outcome (outcome : TxOutcome) : Reads (.ok outcome) (.ok (.outcome outcome))
  | stale (error : QueueError) : Reads (.error error) (.ok .stale)
  | refused (error : QueueError) (contractError : Option Nat) (message : String) :
      Reads (.error error) (.ok (.refused contractError message))
  | failed (error : QueueError) : Reads (.error error) (.error (.queue error))

theorem enqueue_reads {env : Nat → ExecMoment} {s₀ : ExecState} (submission : Submission) :
    Triple env (· = s₀) (enqueue submission) fun r s => ∃ answer result settle, r = .ok (result, settle) ∧
      s = s₀.after [.enqueued submission answer] ∧ Reads answer result := by
  unfold enqueue
  refine execCall_bind fun answer => ?_
  split
  · exact Triple.pure fun s hs => ⟨_, _, _, rfl, hs, .outcome _⟩
  · exact Triple.pure fun s hs => ⟨_, _, _, rfl, hs, .stale _⟩
  · exact Triple.pure fun s hs => ⟨_, _, _, rfl, hs, .refused _ _ _⟩
  · exact Triple.pure fun s hs => ⟨_, _, _, rfl, hs, .failed _⟩

theorem enqueue_reads_bind {β : Type} {env : Nat → ExecMoment} {s₀ : ExecState} {submission : Submission}
    {f : Except ExecutorError Landed × Settle → Exec Empty β} {Q : Res Empty β → ExecState → Prop}
    (h : ∀ answer result settle, Reads answer result →
      Triple env (· = s₀.after [.enqueued submission answer]) (f (result, settle)) Q) :
    Triple env (· = s₀) (enqueue submission >>= f) Q := by
  refine Triple.bind (enqueue_reads submission) (fun pair => ?_) (fun e => e.elim) fun s hs => ?_
  · intro t s ⟨answer, result, settle, hr, hs, hreads⟩
    cases hr
    exact h answer result settle hreads t s hs
  · obtain ⟨_, _, _, hr, _⟩ := hs
    cases hr

section

variable {env : Nat → ExecMoment} {s₀ : ExecState}

theorem refusal_landing (contractError : Option Nat) : (refusal contractError).landing = none := by
  unfold refusal
  split
  · split <;> rfl
  · rfl

/-- A judgment records nothing. -/
theorem judge_landing (e : Executor) (plan : FillPlan) (armed : Bool) :
    Gives env (fun _ => True) (e.judge plan armed) fun judged _ =>
      ∀ outcome, judged = .error outcome → outcome.landing = none := by
  unfold Executor.judge
  refine Gives.bind_lift fun requests _ => ?_
  refine Gives.bind (R := fun _ _ => True) (fun _ _ _ _ _ => trivial) fun judged => ?_
  cases judged with
  | accepted operation => exact Gives.pure fun _ _ outcome h => nomatch h
  | needsRestore operation => exact Gives.pure fun _ _ outcome h => nomatch h
  | unsimulated => exact Gives.pure fun _ _ outcome h => nomatch h
  | unjudged =>
    refine Gives.pure fun _ _ outcome h => ?_
    cases h
    rfl
  | refused contractError message =>
    refine Gives.pure fun _ _ outcome h => ?_
    cases h
    exact refusal_landing contractError

theorem submitRecorded_reports (e : Executor) (plan : FillPlan) (fillId : Int) (simulated : Bool)
    (operation : Operation) {acts : List ExecAct} (hacts : landed acts = none) :
    Triple env (· = s₀.after acts) (e.submitRecorded plan fillId simulated operation)
      (RunReports ExecOutcome.landing s₀) := by
  have hsub : ∀ more, landed (acts ++ more) = landed more := by
    intro more
    unfold landed at hacts ⊢
    rw [List.findSome?_append, hacts, Option.none_or]
  unfold Executor.submitRecorded
  refine enqueue_reads_bind fun answer result settle hreads => ?_
  simp only [ExecState.after_after]
  cases hreads with
  | stale error => exact Triple.pure fun s hs => ⟨_, _, _, rfl, hs, reports_none (hsub _) rfl⟩
  | refused error contractError message =>
    refine Triple.pure fun s hs => ⟨_, _, _, rfl, hs, reports_none (hsub _) ?_⟩
    exact refusal_landing contractError
  | failed error => exact Triple.pure fun s hs => ⟨_, _, _, rfl, hs, reports_none (hsub _) rfl⟩
  | outcome outcome =>
    refine execCall_bind fun attached => ?_
    simp only [ExecState.after_after]
    cases attached with
    | error error => exact Triple.pure fun s hs => ⟨_, _, _, rfl, hs, .inr ⟨error, rfl⟩⟩
    | ok found =>
      refine Triple.pure fun s hs => ⟨_, _, _, rfl, hs, .inl ?_⟩
      rw [List.append_assoc, hsub]
      show landed [.enqueued _ (.ok outcome), .attached _ _ _] = Filler.landedAt outcome
      unfold landed
      cases hout : Filler.landedAt outcome with
      | none => simp [ExecAct.landing, hout]
      | some ledger => simp [ExecAct.landing, hout]

theorem run_reports (e : Executor) (plan : FillPlan) (armed : Bool) :
    Triple env (· = s₀) (e.run plan armed) (RunReports ExecOutcome.landing s₀) := by
  unfold Executor.run
  have hjudge := Triple.and (@judge_judges e plan armed env s₀) (judge_landing e plan armed)
  refine Triple.bind_caught (Triple.pre hjudge fun s hs => ⟨hs, trivial⟩) (fun judged => ?_) (fun error => ?_)
    fun s ⟨⟨_, _, hj⟩, _⟩ => nomatch hj
  · refine Triple.pre (P := fun s => ∃ acts, (JudgesFill armed (.ok judged) acts ∧
      ∀ outcome, judged = .error outcome → outcome.landing = none) ∧ s = s₀.after acts) (Triple.ex fun acts =>
        Triple.given fun hj => ?_) fun s ⟨⟨acts, hs, hj⟩, hnone⟩ => ⟨acts, ⟨hj, hnone judged rfl⟩, hs⟩
    obtain ⟨hj, hnone⟩ := hj
    have hacts : landed acts = none := by
      cases hj with
      | refused _ h => exact landed_simulated h
      | unsigned => rfl
      | passed => rfl
    cases judged with
    | error outcome =>
      exact Triple.pure fun s hs => ⟨_, _, _, rfl, hs, reports_none hacts (hnone outcome rfl)⟩
    | ok passed =>
      obtain ⟨operation, simulated⟩ := passed
      refine execCall_bind fun written => ?_
      have hwritten : landed (acts ++ [.recordedFill (e.fillRecord plan) written]) = none := by
        unfold landed at hacts ⊢
        rw [List.findSome?_append, hacts]
        rfl
      simp only [ExecState.after_after]
      split
      · exact Triple.pure fun s hs => ⟨_, _, _, rfl, hs, .inr ⟨_, rfl⟩⟩
      · split
        · exact submitRecorded_reports e plan _ simulated _ hwritten
        · exact Triple.pure fun s hs => ⟨_, _, _, rfl, hs, reports_none hwritten rfl⟩
  · refine Triple.pure fun s ⟨⟨acts, hs, hj⟩, _⟩ => ⟨_, _, _, rfl, hs, reports_none ?_ rfl⟩
    cases hj with
    | failed _ h => exact landed_simulated h

theorem submit_reports (armed : Bool) (operation : Operation) (simulated : Bool) {acts : List ExecAct}
    (hacts : ∀ act ∈ acts, act.isSimulated = true) :
    Triple env (· = s₀.after acts) (Executor.runUnwind.submit armed operation simulated)
      (RunReports UnwindOutcome.landing s₀) := by
  have hnone := landed_simulated hacts
  have hsub : ∀ more, landed (acts ++ more) = landed more := by
    intro more
    unfold landed at hnone ⊢
    rw [List.findSome?_append, hnone, Option.none_or]
  unfold Executor.runUnwind.submit
  split
  · refine enqueue_reads_bind fun answer result settle hreads => ?_
    simp only [ExecState.after_after]
    cases hreads with
    | stale error => exact Triple.pure fun s hs => ⟨_, _, _, rfl, hs, reports_none (hsub _) rfl⟩
    | refused error contractError message =>
      exact Triple.pure fun s hs => ⟨_, _, _, rfl, hs, reports_none (hsub _) rfl⟩
    | failed error => exact Triple.pure fun s hs => ⟨_, _, _, rfl, hs, reports_none (hsub _) rfl⟩
    | outcome outcome =>
      refine Triple.pure fun s hs => ⟨_, _, _, rfl, hs, .inl ?_⟩
      rw [hsub]
      show landed [.enqueued _ (.ok outcome)] = Filler.landedAt outcome
      unfold landed
      cases hout : Filler.landedAt outcome with
      | none => simp [ExecAct.landing, hout]
      | some ledger => simp [ExecAct.landing, hout]
  · exact Triple.pure fun s hs => ⟨_, _, _, rfl, hs, reports_none hnone rfl⟩

theorem runUnwind_reports (e : Executor) (pool : String) (plan : UnwindPlan) (armed : Bool) :
    Triple env (· = s₀) (e.runUnwind pool plan armed) (RunReports UnwindOutcome.landing s₀) := by
  unfold Executor.runUnwind
  refine Triple.bind_caught (judgeOperation_judges e pool _ armed) (fun judged => ?_) (fun error => ?_)
    fun s ⟨_, _, hj⟩ => nomatch hj
  · intro t s ⟨acts, hs, hj⟩
    have hsim := hj.simulated
    have hnone := landed_simulated hsim
    cases hj with
    | unsigned => exact ⟨_, _, _, rfl, hs, reports_none hnone rfl⟩
    | accepted operation => exact submit_reports armed operation true hsim t s hs
    | restored ha operation => exact submit_reports armed operation false hsim t s hs
    | unjudged operation => exact ⟨_, _, _, rfl, hs, reports_none hnone rfl⟩
    | refused operation contractError message => exact ⟨_, _, _, rfl, hs, reports_none hnone rfl⟩
  · exact Triple.pure fun s ⟨acts, hs, hj⟩ => ⟨_, _, _, rfl, hs, reports_none (landed_simulated hj.simulated) rfl⟩

end

/-! ## A whole call -/

/-- A call answers, and its answer reports what landed. -/
def Reported {α : Type} (landing : α → Option (Option Nat)) (s : ExecState)
    (ran : Res Empty (Except ExecutorError α) × Nat × ExecState) : Prop :=
  ∃ answer acts, ran.1 = .ok answer ∧ ran.2.2.acts = s.acts ++ acts ∧ Reports landing answer acts

theorem Reports.settled {α : Type} {landing : α → Option (Option Nat)} {answer : Except ExecutorError α}
    {acts : List ExecAct} (h : Reports landing answer acts) (how : Settle) :
    Reports landing answer (acts ++ [.settled how]) := by
  refine h.imp (fun hlanded => ?_) id
  rw [← hlanded]
  unfold landed
  rw [List.findSome?_append]
  exact Option.or_none

theorem settleReservation_reported {α : Type} {landing : α → Option (Option Nat)} {answer : Except ExecutorError α}
    {acts : List ExecAct} (h : Reports landing answer acts) (reservation : Option Inventory.Reservation)
    (settle : Settle) (env : Nat → ExecMoment) (t : Nat) (s₀ : ExecState) :
    Reported landing s₀
      ((do settleReservation reservation settle; pure answer : Exec Empty _) env t (s₀.after acts)) := by
  cases reservation with
  | none =>
    cases settle with
    | consume => exact ⟨answer, acts, rfl, rfl, h⟩
    | release => exact ⟨answer, acts, rfl, rfl, h⟩
  | some reservation =>
    cases settle with
    | consume => exact ⟨answer, _, rfl, List.append_assoc _ _ _, h.settled .consume⟩
    | release => exact ⟨answer, _, rfl, List.append_assoc _ _ _, h.settled .release⟩

/-- A call that only settles says that nothing landed. -/
theorem release_reported {α : Type} {landing : α → Option (Option Nat)} {answer : Except ExecutorError α}
    (h : saysLanded landing answer = none) (reservation : Option Inventory.Reservation)
    (env : Nat → ExecMoment) (t : Nat) (s₀ : ExecState) :
    Reported landing s₀ ((do release reservation; pure answer : Exec Empty _) env t s₀) := by
  have hnone : Reports landing answer [] := reports_none rfl h
  have hsettled := settleReservation_reported hnone reservation .release env t s₀
  rwa [ExecState.after_nil] at hsettled

theorem RunReports.reported {α : Type} {landing : α → Option (Option Nat)} {s : ExecState}
    {run : Exec Empty (Except ExecutorError α × Settle)} {env : Nat → ExecMoment} {t : Nat}
    (hrun : Triple env (· = s) run (RunReports landing s)) (reservation : Option Inventory.Reservation) :
    Reported landing s
      ((do let (answer, settled) ← run; settleReservation reservation settled; pure answer :
        Exec Empty _) env t s) := by
  obtain ⟨answer, settle, acts, hanswer, hs, hreports⟩ := hrun t s rfl
  have hend := settleReservation_reported hreports reservation settle env (run env t s).2.1 s
  rw [← hs] at hend
  show Reported landing s (Prog.bind run _ env t s)
  unfold Prog.bind
  generalize run env t s = out at hanswer hend ⊢
  obtain ⟨r, t', s'⟩ := out
  simp only at hanswer
  subst hanswer
  exact hend

theorem guard_reported {α : Type} {landing : α → Option (Option Nat)} {e : Executor} {settlement : Settlement}
    {armed : Bool} {env : Nat → ExecMoment} {t : Nat} {s : ExecState}
    {f : Option Inventory.Reservation → Exec Empty (Except ExecutorError α)}
    (hgo : Reported landing s (f settlement.reservation env t s)) :
    Reported landing s ((do
      match ← e.guard settlement armed with
      | .error error => pure (.error error)
      | .ok reservation => f reservation : Exec Empty _) env t s) := by
  show Reported landing s (Prog.bind (e.guard settlement armed) _ env t s)
  unfold Prog.bind
  obtain ⟨hguard, -⟩ | ⟨error, hguard⟩ := guard_cases e settlement armed env t s
  · rw [hguard]
    exact hgo
  · rw [hguard]
    have hstop : Reported landing s ((do release settlement.reservation; pure (.error error) : Exec Empty _) env t s) :=
      release_reported rfl settlement.reservation env t s
    cases settlement with
    | live reservation => exact hstop
    | dryRun => exact hstop

/-- What a call of the executor answers and leaves. -/
def Called {α : Type} (landing : α → Option (Option Nat)) (s : ExecState)
    (ran : Res Empty (Except ExecutorError α) × Nat × ExecState) : Prop :=
  ∃ answer acts, ran.1 = .ok answer ∧ ran.2.2.acts = s.acts ++ acts ∧ Reports landing answer acts ∧
    (landed acts = none → ran.2.2.ledger.balances = s.ledger.balances ∧ ran.2.2.ledger.readAt = s.ledger.readAt)

/-- A reservation that was not consumed leaves the balances alone. -/
theorem SettledByChain.balances {settlement : Settlement} {before after : Inventory.Ledger} {acts : List ExecAct}
    (h : SettledByChain settlement before after acts) (hnone : landed acts = none) :
    after.balances = before.balances ∧ after.readAt = before.readAt := by
  have hunpaid := landed_eq_none.1 hnone
  cases settlement with
  | dryRun =>
    obtain ⟨-, -, rfl⟩ := h
    exact ⟨rfl, rfl⟩
  | live reservation =>
    obtain ⟨-, ⟨act, hact, hpaid⟩, -⟩ | ⟨-, -, rfl⟩ := h
    · exact absurd hpaid (hunpaid act hact)
    · exact ⟨rfl, rfl⟩

theorem Reported.called {α : Type} {landing : α → Option (Option Nat)} {s : ExecState} {e : Executor} {armed : Bool}
    {row : Option FillRecord} {settlement : Settlement} {ran : Res Empty (Except ExecutorError α) × Nat × ExecState}
    (h : Reported landing s ran) (hconcluded : Concluded e armed row settlement s ran) : Called landing s ran := by
  obtain ⟨answer, acts, hanswer, hacts, hreports⟩ := h
  obtain ⟨_, acts', -, hacts', -, hsettled⟩ := hconcluded
  obtain rfl : acts' = acts := List.append_cancel_left (hacts'.symm.trans hacts)
  exact ⟨answer, acts', hanswer, hacts, hreports, hsettled.balances⟩

theorem execute_called (e : Executor) (plan : FillPlan) (settlement : Settlement) (armed : Bool)
    (env : Nat → ExecMoment) (t : Nat) (s : ExecState) :
    Called ExecOutcome.landing s (e.execute plan settlement armed env t s) := by
  refine Reported.called (guard_reported ?_) (execute_concludes e plan settlement armed env t s)
  exact RunReports.reported (run_reports e plan armed) settlement.reservation

theorem unwind_called (e : Executor) (pool : String) (plan : UnwindPlan) (settlement : Settlement) (armed : Bool)
    (env : Nat → ExecMoment) (t : Nat) (s : ExecState) :
    Called UnwindOutcome.landing s (e.unwind pool plan settlement armed env t s) := by
  refine Reported.called (guard_reported ?_) (unwind_concludes e pool plan settlement armed env t s)
  by_cases hidle : plan.isIdle = true
  · rw [if_pos hidle]
    exact release_reported rfl settlement.reservation env t s
  · rw [if_neg hidle]
    exact RunReports.reported (runUnwind_reports e pool plan armed) settlement.reservation

end BlendLiquidator
