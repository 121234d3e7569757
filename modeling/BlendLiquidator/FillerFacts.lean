/-
Every run of the filler leaves a record on which each act is justified, and
remembers what the record makes of it.

One lemma for each of the filler's functions, over the record alone: which
facts about the record it needs and which it leaves. Where the store fails the
run is over, and only the record is spoken for.
-/
import BlendLiquidator.FillerTrace

namespace BlendLiquidator

open Oracle

namespace Filler

/-- The record is sound and `P` holds of it. -/
def At (f : Filler) (P : List FillerAct → Prop) (s : FillerSystem) : Prop := Sound f s.core s.acts ∧ P s.acts

/-- From a sound record `P` holds of to a sound one `Q` holds of. A failure
leaves every act justified. -/
def Goes {α : Type} (f : Filler) (env : Nat → FillerMoment) (P : List FillerAct → Prop) (m : Filling α)
    (Q : α → List FillerAct → Prop) : Prop :=
  Ends env (At f P) m (fun a => At f (Q a)) fun s => Traced f s.acts

section Rules

variable {f : Filler} {env : Nat → FillerMoment} {α β : Type} {P P' : List FillerAct → Prop}
  {Q : α → List FillerAct → Prop} {R : β → List FillerAct → Prop} {m : Filling α} {k : α → Filling β}

theorem Goes.pure {a : α} (h : ∀ acts, P acts → Q a acts) : Goes f env P (Pure.pure a) Q :=
  Ends.pure fun s hs => ⟨hs.1, h s.acts hs.2⟩

theorem Goes.conseq {Q' : α → List FillerAct → Prop} (h : Goes f env P m Q) (hpre : ∀ acts, P' acts → P acts)
    (hpost : ∀ a acts, Q a acts → Q' a acts) : Goes f env P' m Q' :=
  Ends.conseq h (fun s hs => ⟨hs.1, hpre s.acts hs.2⟩) fun a s hs => ⟨hs.1, hpost a s.acts hs.2⟩

theorem Goes.pre (h : Goes f env P m Q) (hpre : ∀ acts, P' acts → P acts) : Goes f env P' m Q :=
  h.conseq hpre fun _ _ => id

theorem Goes.bind (hm : Goes f env P m Q) (hk : ∀ a, Goes f env (Q a) (k a) R) : Goes f env P (m >>= k) R :=
  Ends.bind hm hk

theorem Goes.bind_ask {g : FillerMoment → α} (h : ∀ a, Goes f env P (k a) R) : Goes f env P (Prog.ask g >>= k) R :=
  Ends.bind_ask h

theorem Goes.bind_read {g : FillerSystem → α} (h : ∀ a, Goes f env P (k a) R) :
    Goes f env P (Prog.read g >>= k) R :=
  Ends.bind_read fun a => Ends.pre (h a) fun _ hs => hs.1

/-- A step that touches nothing the record is about. -/
theorem Goes.modify {g : FillerSystem → FillerSystem} (hcore : ∀ s, (g s).core = s.core)
    (hacts : ∀ s, (g s).acts = s.acts) : Goes f env P (Prog.modify g) fun _ => P := by
  refine Ends.modify fun s hs => ?_
  unfold At
  rw [hcore, hacts]
  exact hs

theorem Goes.did {act : FillerAct} (hact : ∀ acts, P acts → Grounds f acts act) (hneutral : act.Neutral) :
    Goes f env P (did act) fun _ acts => ∃ before, P before ∧ acts = before ++ [act] :=
  Ends.modify fun s hs => ⟨hs.1.did (hact s.acts hs.2) hneutral, s.acts, hs.2, rfl⟩

theorem Goes.statement {method : FillerMoment → Except StoreError α} :
    Goes f env P (statement method) fun _ => P := by
  unfold Filler.statement
  refine Ends.bind_ask fun answer => ?_
  exact Triple.lift (fun a _ s hs => hs) fun e _ s hs => hs.1.traced

end Rules

/-- `P` stays with every read and observation. -/
def Lasts (P : List FillerAct → Prop) : Prop := ∀ acts act, act.Neutral → P acts → P (acts ++ [act])

section Small

variable {f : Filler} {env : Nat → FillerMoment} {P : List FillerAct → Prop}

theorem update_goes {g : FillerState → FillerState}
    (hcore : ∀ s : FillerSystem, { s with state := g s.state }.core = s.core) : Goes f env P (update g) fun _ => P :=
  Goes.modify hcore fun _ => rfl

theorem count_goes {g : TickSummary → TickSummary} : Goes f env P (count g) fun _ => P :=
  Goes.modify (fun _ => rfl) fun _ => rfl

theorem skipped_goes : Goes f env P skipped fun _ => P := count_goes

theorem stopping_goes (hlasts : ∀ acts requested, P acts → P (acts ++ [.stop requested])) :
    Goes f env P stopping fun requested acts => P acts ∧ (requested = false → Awake acts) := by
  unfold stopping
  refine Goes.bind_ask fun requested => Goes.bind (Goes.did (fun _ _ => trivial) trivial) fun _ => Goes.pure ?_
  rintro acts ⟨before, hbefore, rfl⟩
  refine ⟨hlasts before _ hbefore, ?_⟩
  rintro rfl
  exact ⟨before, [], rfl, quiet_nil⟩

theorem clearPlan_goes : Goes f env P clearPlan fun _ => P := by
  unfold clearPlan
  exact Goes.bind Goes.statement fun _ => Goes.pure fun _ h => h

theorem writePlan_goes {tick : LedgerTick} {row : TrackedAuction} :
    Goes f env P (writePlan tick row) fun _ => P := by
  unfold writePlan
  refine Goes.bind Goes.statement fun written => ?_
  cases written with
  | false => exact Goes.pure fun _ h => h
  | true =>
    refine Goes.bind ?_ fun _ => Goes.bind count_goes fun _ => Goes.pure fun _ h => h
    exact update_goes fun _ => rfl

theorem noteStale_goes {row : TrackedAuction} : Goes f env P (noteStale row) fun _ => P := by
  unfold noteStale
  refine Goes.bind clearPlan_goes fun _ => Goes.bind ?_ fun _ => Goes.bind skipped_goes fun _ => Goes.pure fun _ h => h
  exact update_goes fun _ => rfl

/-- A draft is the planner's, of the wallet as it stood. -/
theorem drafted_goes {context : PoolPass} {row : TrackedAuction} {auction : AuctionData} {maxPercent : FillPercent} :
    Goes f env P (f.drafted context row auction maxPercent) fun answer acts => P acts ∧ ∀ draft, answer = some draft →
      ∃ wallet, planFill (f.terms context auction) (inputs context row.account auction maxPercent wallet) =
        .ok (.fill draft) := by
  unfold drafted
  refine Ends.bind_read fun planned => ?_
  match planned with
  | .ok (.fill draft) =>
    refine Ends.pure fun s hs => ⟨hs.1.1, hs.1.2, fun other hother => ?_⟩
    cases hother
    exact ⟨_, hs.2⟩
  | .ok (.skip reason) =>
    refine Ends.pre ?_ fun _ hs => hs.1
    refine Goes.bind clearPlan_goes fun _ => Goes.bind skipped_goes fun _ => Goes.pure fun acts h => ⟨h, ?_⟩
    intro draft hdraft
    cases hdraft
  | .error error =>
    refine Ends.pure fun s hs => ⟨hs.1.1, hs.1.2, fun draft hdraft => ?_⟩
    cases hdraft

theorem reserve_wallet (ledger : Inventory.Ledger) (amounts : BTreeMap String Int) :
    (Inventory.reserve ledger amounts).2.balances = ledger.balances ∧
      (Inventory.reserve ledger amounts).2.readAt = ledger.readAt := by
  unfold Inventory.reserve
  split <;> exact ⟨rfl, rfl⟩

theorem settlementFor_goes {spend : BTreeMap String Int} : Goes f env P (f.settlementFor spend) fun _ => P := by
  unfold settlementFor
  by_cases hdry : f.config.dryRun = true
  · rw [if_pos hdry]
    exact Goes.pure fun _ h => h
  · rw [if_neg hdry]
    refine Ends.bind_read fun reserved => ?_
    refine Ends.bind_modify (I := At f P) (fun s hs => ?_) ?_
    · obtain ⟨hs, rfl⟩ := hs
      have hwallet := reserve_wallet s.inventory spend
      unfold At FillerSystem.core
      simp only [hwallet.1, hwallet.2]
      exact hs
    · split
      · exact Goes.pure fun _ h => h
      · exact Goes.pure fun _ h => h

end Small

/-! ## The executor -/

/-- What the executor made of a call that went out from a record `P` held of:
the act is on the record, the pools pending are those owed before, and taking
note of the answer keeps the record sound, unless the store failed. -/
def Handed {α : Type} (f : Filler) (P : List FillerAct → Prop)
    (act : List ExecAct → Except ExecutorError α → FillerAct) (answer : Except ExecutorError α)
    (s : FillerSystem) : Prop :=
  ∃ before done, P before ∧ s.acts = before ++ [act done answer] ∧ Traced f s.acts ∧
    (∀ pool, pool ∈ s.core.pending ↔ Owed pool before) ∧ ((∃ error, answer = .error (.store error)) ∨
      (act done answer).Noted ∧
      Sound f (Core.submitted s.core s.core.balances s.core.readAt (act done answer).noted) s.acts)

section Executing

variable {f : Filler} {env : Nat → FillerMoment} {P : List FillerAct → Prop}

/-- A call of the executor from a sound record. -/
theorem executing_handed {α : Type} {landing : α → Option (Option Nat)} {call : Exec Empty (Except ExecutorError α)}
    {act : List ExecAct → Except ExecutorError α → FillerAct} {pool : String}
    (hcall : ∀ env t s, Called landing s (call env t s))
    (hgrounds : ∀ acts, P acts → ∀ done answer, Grounds f acts (act done answer))
    (hlanding : ∀ done answer, (act done answer).landing = (landed done).map (pool, ·))
    (hnoted : ∀ done answer, (act done answer).noted = (saysLanded landing answer).map (pool, ·))
    (howes : ∀ done answer other owed, (act done answer).owes other owed ↔
      owed ∨ ∃ ledger, (act done answer).noted = some (other, ledger))
    (hmarks : ∀ done answer other mark, (act done answer).marks other mark = match (act done answer).noted with
      | some (marked, ledger) => if marked = other then some ledger else mark
      | none => mark)
    (hseeded : ∀ done answer pools, act done answer ≠ .seeded pools) :
    Ends env (At f P) (executing call act) (Handed f P act) fun s => Traced f s.acts := by
  unfold executing
  refine Ends.bind_inside (A := fun s answer part => ∃ given, answer = .ok given ∧ Reports landing given part.acts ∧
    (landed part.acts = none → part.ledger.balances = s.inventory.balances ∧
      part.ledger.readAt = s.inventory.readAt)) (fun s hs => ?_) fun answer part => ?_
  · intro t exec hexec
    obtain ⟨given, acts, hanswer, hacts, hreports, hledger⟩ := hcall (fun i => (env i).exec) t exec
    subst hexec
    replace hacts : (call (fun i => (env i).exec) t { ledger := s.inventory }).2.2.acts = acts := hacts
    rw [hanswer]
    exact ⟨given, rfl, by rwa [hacts], by rwa [hacts]⟩
  · cases answer with
    | error error => exact error.elim
    | ok given =>
      refine Ends.bind_modify (I := Handed f P act given) (fun s hs => ?_) (Ends.pure fun _ h => h)
      obtain ⟨⟨hsound, hp⟩, other, hother, hreports, hledger⟩ := hs
      cases hother
      have hact := hgrounds s.acts hp part.acts given
      refine ⟨s.acts, part.acts, hp, rfl, hsound.trace hact, hsound.pending, ?_⟩
      obtain hsame | hstore := hreports
      · have hnote : (act part.acts given).Noted := by
          unfold FillerAct.Noted
          rw [hlanding, hnoted, hsame]
        refine .inr ⟨hnote, ?_⟩
        refine hsound.submitted hact hnote (howes _ _) (hmarks _ _) (hseeded _ _) fun hnone => ?_
        rw [hnoted, ← hsame, Option.map_eq_none_iff] at hnone
        exact hledger hnone
      · exact .inl hstore

theorem execute_handed {pool : PoolConfig} {auction : AuctionData} {plan : FillPlan} {settlement : Settlement}
    {armed : Bool} (hp : ∀ acts, P acts → (Awake acts ∧ Seeded acts) ∧ Drafted f pool auction plan acts) :
    Ends env (At f P) (executing (f.executor.execute plan settlement armed) (.fill pool auction plan))
      (Handed f P (.fill pool auction plan)) fun s => Traced f s.acts :=
  executing_handed (execute_called f.executor plan settlement armed) (fun acts h _ _ => hp acts h)
    (fun _ _ => rfl) (fun _ _ => rfl) (fun _ _ _ _ => Iff.rfl) (fun _ _ _ _ => rfl) fun _ _ _ h => nomatch h

theorem unwind_handed {pool : String} {plan : UnwindPlan} {settlement : Settlement} {armed : Bool}
    (hp : ∀ acts, P acts → (Awake acts ∧ Seeded acts) ∧ Owed pool acts) :
    Ends env (At f P) (executing (f.executor.unwind pool plan settlement armed) (.unwind pool plan))
      (Handed f P (.unwind pool plan)) fun s => Traced f s.acts :=
  executing_handed (unwind_called f.executor pool plan settlement armed) (fun acts h _ _ => hp acts h)
    (fun _ _ => rfl) (fun _ _ => rfl) (fun _ _ _ _ => Iff.rfl) (fun _ _ _ _ => rfl) fun _ _ _ h => nomatch h

end Executing

/-! ## Staying on the record -/

/-- `P` stays with whatever does not land. -/
def Rides (P : List FillerAct → Prop) : Prop := ∀ acts act, act.landing = none → P acts → P (acts ++ [act])

theorem Rides.lasts {P : List FillerAct → Prop} (h : Rides P) : Lasts P :=
  fun acts act hneutral hp => h acts act hneutral.landing hp

theorem Rides.and {P Q : List FillerAct → Prop} (h : Rides P) (h' : Rides Q) : Rides fun acts => P acts ∧ Q acts :=
  fun acts act hnone hp => ⟨h acts act hnone hp.1, h' acts act hnone hp.2⟩

theorem Seeded.concat {acts : List FillerAct} (h : Seeded acts) (act : FillerAct) : Seeded (acts ++ [act]) := by
  obtain ⟨pools, hpools⟩ := h
  exact ⟨pools, List.mem_append_left _ hpools⟩

theorem seeded_rides : Rides Seeded := fun _ act _ h => h.concat act

theorem awake_rides : Rides Awake := by
  rintro acts act hnone ⟨before, since, rfl, hquiet⟩
  exact ⟨before, since ++ [act], by simp, hquiet.concat hnone⟩

theorem walking_rides {pool : PoolConfig} {snapshot : FullSnapshot} {live : List (TrackedAuction × AuctionData)} :
    Rides (Walking pool snapshot live) := by
  rintro acts act hnone ⟨before, earlier, rows, reads, attempts, since, hopened, rfl, hmade, hquiet⟩
  exact ⟨before, earlier, rows, reads, attempts, since ++ [act], hopened, by simp, hmade, hquiet.concat hnone⟩

theorem Walking.sub {pool : PoolConfig} {snapshot : FullSnapshot} {live kept : List (TrackedAuction × AuctionData)}
    {acts : List FillerAct} (h : Walking pool snapshot live acts) (hsub : ∀ entry ∈ kept, entry ∈ live) :
    Walking pool snapshot kept acts := by
  obtain ⟨before, earlier, rows, reads, attempts, since, hopened, hacts, hmade, hquiet⟩ := h
  refine ⟨before, earlier, rows, reads, attempts, since, ⟨hopened.acts_eq, hopened.same, ?_⟩, hacts, hmade, hquiet⟩
  exact fun entry hentry => hopened.kept entry (hsub entry hentry)

/-! ## One fill -/

/-- A walk that may submit. -/
def Planning (pool : PoolConfig) (snapshot : FullSnapshot) (live : List (TrackedAuction × AuctionData))
    (acts : List FillerAct) : Prop := (Awake acts ∧ Seeded acts) ∧ Walking pool snapshot live acts

theorem planning_rides {pool : PoolConfig} {snapshot : FullSnapshot} {live : List (TrackedAuction × AuctionData)} :
    Rides (Planning pool snapshot live) := (awake_rides.and seeded_rides).and walking_rides

/-- An answer is on the record, and what it says landed is to be noted. -/
def Noting (f : Filler) (P : List FillerAct → Prop) (landed : Option (String × Option Nat)) (s : FillerSystem) : Prop :=
  Sound f (Core.submitted s.core s.core.balances s.core.readAt landed) s.acts ∧ Seeded s.acts ∧
    (landed = none → P s.acts)

theorem Noting.quiet {f : Filler} {P : List FillerAct → Prop} {s : FillerSystem} (h : Noting f P none s) : At f P s :=
  ⟨h.1, h.2.2 rfl⟩

theorem Handed.noting {α : Type} {f : Filler} {P : List FillerAct → Prop}
    {act : List ExecAct → Except ExecutorError α → FillerAct} {answer : Except ExecutorError α} {s : FillerSystem}
    {landed : Option (String × Option Nat)} (h : Handed f P act answer s) (hseeded : ∀ acts, P acts → Seeded acts)
    (hcarry : ∀ acts done, (act done answer).landing = none → P acts → P (acts ++ [act done answer]))
    (hstore : ∀ error, answer ≠ .error (.store error))
    (hlanded : ∀ done, (act done answer).noted = landed) : Noting f P landed s := by
  obtain ⟨before, done, hp, hacts, -, -, ⟨error, herror⟩ | ⟨hnoted, hsound⟩⟩ := h
  · exact absurd herror (hstore error)
  rw [hlanded] at hsound
  refine ⟨hsound, ?_, fun hnone => ?_⟩
  · rw [hacts]
    exact (hseeded before hp).concat _
  · rw [hacts]
    refine hcarry before done ?_ hp
    rw [hnoted, hlanded, hnone]

theorem poolContext_eq {f : Filler} {pool : PoolConfig} {snapshot : FullSnapshot} {tick : LedgerTick}
    {context : PoolPass} (h : f.poolContext pool snapshot tick = some context) : context.pool = pool := by
  simp only [poolContext, Option.bind_eq_bind, Option.bind_eq_some_iff, Option.pure_def, Option.some.injEq] at h
  obtain ⟨_, -, _, -, _, -, _, -, rfl⟩ := h
  rfl

section Fills

variable {f : Filler} {env : Nat → FillerMoment} {pool : PoolConfig} {snapshot : FullSnapshot} {tick : LedgerTick}
  {context : PoolPass} {live : List (TrackedAuction × AuctionData)} {row : TrackedAuction} {auction : AuctionData}
  {draft : FillDraft} {armed : Bool}

/-- What the walk knows once a fill's answer is noted: whether it ends. -/
def Walked (P : List FillerAct → Prop) (ended : Bool) (acts : List FillerAct) : Prop :=
  Seeded acts ∧ (ended = false → P acts)

theorem noteRecorded_goes {recorded : FillRecorded} {P : List FillerAct → Prop} :
    Ends env (Noting f P ((ExecOutcome.recorded recorded).landing.map (row.pool, ·))) (noteRecorded row auction recorded)
      (fun ended => At f (Walked P ended)) fun s => Traced f s.acts := by
  unfold noteRecorded
  refine Ends.bind_modify (I := Noting f P ((ExecOutcome.recorded recorded).landing.map (row.pool, ·))) (fun s hs => hs) ?_
  refine Ends.bind_modify (I := Noting f P ((ExecOutcome.recorded recorded).landing.map (row.pool, ·))) (fun s hs => ?_) ?_
  · split
    · exact hs
    · exact hs
  rw [show (ExecOutcome.recorded recorded).landing = recorded.submission.bind landedAt from rfl]
  cases recorded.submission.bind landedAt with
  | none => exact Ends.pure fun s hs => ⟨hs.1, hs.2.1, fun _ => hs.2.2 rfl⟩
  | some landed =>
    refine Ends.bind_modify (I := At f (Walked P true)) (fun s hs => ?_) (Ends.pure fun s hs => hs)
    refine ⟨hs.1, hs.2.1, fun h => ?_⟩
    cases h

/-- The end of a step that submitted nothing. -/
theorem walked_pure {P : List FillerAct → Prop} (hseeded : ∀ acts, P acts → Seeded acts) {ended : Bool} :
    Goes f env P (Pure.pure ended) (Walked P) := Goes.pure fun acts hp => ⟨hseeded acts hp, fun _ => hp⟩

theorem noteStale_walked {P : List FillerAct → Prop} (hseeded : ∀ acts, P acts → Seeded acts) :
    Goes f env P (noteStale row) (Walked P) :=
  noteStale_goes.conseq (fun _ => id) fun _ acts hp => ⟨hseeded acts hp, fun _ => hp⟩

/-- What was drafted is known for good. -/
theorem Goes.given_draft {α : Type} {P : List FillerAct → Prop} {Q : α → List FillerAct → Prop} {m : Filling α}
    {percent : FillPercent}
    (h : (∃ percent wallet, planFill (f.terms context auction) (inputs context row.account auction percent wallet) =
      .ok (.fill draft)) → Goes f env P m Q) :
    Goes f env (fun acts => P acts ∧ ∀ other, some draft = some other → ∃ wallet, planFill (f.terms context auction)
      (inputs context row.account auction percent wallet) = .ok (.fill other)) m Q := by
  intro t s hs
  obtain ⟨hsound, hp, hdraft⟩ := hs
  obtain ⟨wallet, hplan⟩ := hdraft draft rfl
  exact h ⟨percent, wallet, hplan⟩ t s ⟨hsound, hp⟩

variable (hpool : pool ∈ f.pools) (hcontext : f.poolContext pool snapshot tick = some context)

include hpool hcontext

theorem executeOnce_goes (hmem : (row, auction) ∈ live)
    (hdraft : ∃ percent wallet, planFill (f.terms context auction) (inputs context row.account auction percent wallet) =
      .ok (.fill draft)) :
    Ends env (At f (Planning pool snapshot live)) (f.executeOnce context row auction draft armed)
      (fun answer s => match answer with
        | none => At f (Planning pool snapshot live) s
        | some outcome => Noting f (Planning pool snapshot live) (outcome.landing.map (row.pool, ·)) s)
      fun s => Traced f s.acts := by
  have hsame := poolContext_eq hcontext
  unfold executeOnce
  split
  · exact Ends.bind skipped_goes fun _ => Ends.pure fun _ h => h
  next priority _ =>
  refine Ends.bind settlementFor_goes fun settlement => ?_
  cases settlement with
  | none => exact Ends.bind skipped_goes fun _ => Ends.pure fun _ h => h
  | some settlement =>
    dsimp only
    refine Ends.bind (execute_handed fun acts hp => ⟨hp.1, ?_⟩) fun answer => ?_
    · obtain ⟨percent, wallet, hplan⟩ := hdraft
      rw [hsame]
      refine ⟨hpool, row, snapshot, tick, context, percent, wallet, hp.2.sub ?_, hcontext, rfl, rfl, hplan⟩
      intro entry hentry
      rw [List.mem_singleton.1 hentry]
      exact hmem
    · cases answer with
      | ok outcome =>
        refine Ends.pure fun s hs => ?_
        exact hs.noting (fun acts hp => hp.1.2) (fun acts _ => planning_rides acts _) (fun _ h => nomatch h)
            fun _ => rfl
      | error error =>
        cases error with
        | store inner => exact Ends.fail fun s ⟨_, _, _, _, htraced, _⟩ => htraced
        | chain _ | xdr _ | queue _ | mode _ =>
          refine Ends.pure fun s hs => Noting.quiet ?_
          exact hs.noting (fun acts hp => hp.1.2) (fun acts _ => planning_rides acts _) (fun _ h => nomatch h)
            fun _ => rfl

theorem replan_goes (hmem : (row, auction) ∈ live) :
    Goes f env (Planning pool snapshot live) (f.replan tick context row auction draft armed)
      (Walked (Planning pool snapshot live)) := by
  have hend : ∀ {ended}, Goes f env (Planning pool snapshot live) (Pure.pure ended) (Walked (Planning pool snapshot live)) :=
    walked_pure fun acts hp => hp.1.2
  unfold replan
  split
  · exact skipped_goes.bind fun _ => hend
  next half _ =>
  refine drafted_goes.bind fun answer => ?_
  cases answer with
  | none => exact hend.pre fun _ h => h.1
  | some again =>
    refine Goes.given_draft fun hdraft => ?_
    refine writePlan_goes.bind fun written => ?_
    cases written with
    | false => exact hend
    | true =>
      simp only [Bool.not_true, Bool.false_eq_true, ↓reduceIte]
      split
      · exact hend
      refine Ends.bind (executeOnce_goes hpool hcontext hmem hdraft) fun answer => ?_
      match answer with
      | none => exact hend
      | some (.recorded recorded) => exact noteRecorded_goes
      | some .stale => exact Ends.pre (noteStale_walked fun acts hp => hp.1.2) fun s hs => hs.quiet
      | some (.replan _) => exact Ends.pre (skipped_goes.bind fun _ => hend) fun s hs => hs.quiet
      | some (.refused _) => exact Ends.pre (skipped_goes.bind fun _ => hend) fun s hs => hs.quiet

/-- A draft that was planned, executed. -/
theorem executeDraft_goes (hmem : (row, auction) ∈ live)
    (hdraft : ∃ percent wallet, planFill (f.terms context auction) (inputs context row.account auction percent wallet) =
      .ok (.fill draft)) :
    Goes f env (Planning pool snapshot live) (f.executeDraft tick context row auction draft armed)
      (Walked (Planning pool snapshot live)) := by
  have hend : ∀ {ended}, Goes f env (Planning pool snapshot live) (Pure.pure ended) (Walked (Planning pool snapshot live)) :=
    walked_pure fun acts hp => hp.1.2
  unfold executeDraft
  refine Ends.bind (executeOnce_goes hpool hcontext hmem hdraft) fun answer => ?_
  match answer with
  | none => exact hend
  | some (.recorded recorded) => exact noteRecorded_goes
  | some .stale => exact Ends.pre (noteStale_walked fun acts hp => hp.1.2) fun s hs => hs.quiet
  | some (.replan _) => exact Ends.pre (replan_goes hpool hcontext hmem) fun s hs => hs.quiet
  | some (.refused _) => exact Ends.pre (skipped_goes.bind fun _ => hend) fun s hs => hs.quiet

theorem planAndAct_goes {execute : Bool} (hmem : (row, auction) ∈ live) :
    Goes f env (Planning pool snapshot live) (f.planAndAct tick context row auction execute armed)
      (Walked (Planning pool snapshot live)) := by
  have hend : ∀ {ended}, Goes f env (Planning pool snapshot live) (Pure.pure ended) (Walked (Planning pool snapshot live)) :=
    walked_pure fun acts hp => hp.1.2
  unfold planAndAct
  split
  · exact hend
  next whole _ =>
  refine drafted_goes.bind fun answer => ?_
  cases answer with
  | none => exact hend.pre fun _ h => h.1
  | some draft =>
    refine Goes.given_draft fun hdraft => ?_
    refine writePlan_goes.bind fun written => ?_
    cases written with
    | false => exact hend
    | true =>
      simp only [Bool.not_true, Bool.false_eq_true, ↓reduceIte]
      split
      · exact hend
      · exact executeDraft_goes hpool hcontext hmem hdraft

theorem walk_goes {execute : Bool} :
    Goes f env (fun acts => Seeded acts ∧ Walking pool snapshot live acts) (f.walk tick context execute armed live)
      fun _ => Seeded := by
  induction live with
  | nil => exact Goes.pure fun acts h => h.1
  | cons entry rest ih =>
    obtain ⟨row, auction⟩ := entry
    have hrest : ∀ {acts}, Walking pool snapshot ((row, auction) :: rest) acts → Walking pool snapshot rest acts :=
      fun h => h.sub fun entry hentry => List.mem_cons_of_mem _ hentry
    unfold walk
    refine (stopping_goes fun acts _ => (seeded_rides.and walking_rides) acts _ rfl).bind fun requested => ?_
    cases requested with
    | true => exact Goes.pure fun acts h => h.1.1
    | false =>
      refine Goes.bind_read fun recorded => ?_
      cases recorded with
      | true => exact ih.pre fun acts h => ⟨h.1.1, hrest h.1.2⟩
      | false =>
        refine Goes.pre ?_ fun acts h => show Planning pool snapshot ((row, auction) :: rest) acts from
          ⟨⟨h.2 rfl, h.1.1⟩, h.1.2⟩
        refine (planAndAct_goes hpool hcontext List.mem_cons_self).bind fun ended => ?_
        cases ended with
        | true => exact Goes.pure fun acts h => h.1
        | false => exact ih.pre fun acts h => ⟨h.1, hrest (h.2 rfl).2⟩

end Fills

/-! ## The reads of a walk -/

section Reads

variable {f : Filler} {env : Nat → FillerMoment} {P : List FillerAct → Prop} {pool : PoolConfig}

/-- One entry, on the record with its answer. -/
theorem readEntry_ends {row : TrackedAuction} :
    Ends env (At f P) ((readEntry row).runWith auctionCall)
      (fun read => At f fun acts => ∃ before answer, P before ∧ acts = before ++ [.entry row.pool row.account answer] ∧
        ∀ other auction, read = .live other auction → other = row ∧ ∃ ledger, answer = .ok (some (ledger, auction)))
      fun s => Traced f s.acts := by
  have hcall : (readEntry row).runWith auctionCall = auctionCall (.auction row.pool row.account .userLiquidation) >>= _ :=
    rfl
  rw [hcall]
  unfold auctionCall
  refine Ends.bind (Q := fun answer => At f fun acts =>
    ∃ before, P before ∧ acts = before ++ [.entry row.pool row.account answer]) ?_ fun answer => ?_
  · refine Ends.bind_inside_stays (fun _ => PoolReader.auction_stays) fun answer => ?_
    refine Ends.bind_modify (fun s hs => ?_) (Ends.pure fun s hs => hs)
    exact ⟨hs.1.did trivial trivial, s.acts, hs.2, rfl⟩
  · match answer with
    | .ok (some (ledger, auction)) =>
      refine Ends.pure fun s hs => ⟨hs.1, ?_⟩
      obtain ⟨before, hbefore, hacts⟩ := hs.2
      refine ⟨before, _, hbefore, hacts, fun other auction' hlive => ?_⟩
      cases hlive
      exact ⟨rfl, ledger, rfl⟩
    | .ok none =>
      show Ends env _ (Prog.ask FillerMoment.statement >>= _) _ _
      refine Ends.bind_ask fun written => ?_
      cases written with
      | ok _ =>
        refine Ends.pure fun s hs => ⟨hs.1, ?_⟩
        obtain ⟨before, hbefore, hacts⟩ := hs.2
        exact ⟨before, _, hbefore, hacts, fun _ _ hlive => nomatch hlive⟩
      | error error => exact Ends.fail fun s hs => hs.1.traced
    | .error error =>
      refine Ends.pure fun s hs => ⟨hs.1, ?_⟩
      obtain ⟨before, hbefore, hacts⟩ := hs.2
      exact ⟨before, _, hbefore, hacts, fun _ _ hlive => nomatch hlive⟩

theorem Opened.concat {rows : List TrackedAuction} {live : List (TrackedAuction × AuctionData)}
    {acts earlier reads : List FillerAct} {act : FillerAct} (h : Opened pool live acts earlier rows reads)
    (hact : act.isOpened = false) : Opened pool live (acts ++ [act]) earlier rows (reads ++ [act]) := by
  refine ⟨by simp [h.acts_eq], fun other hother => ?_, fun entry hentry => ?_⟩
  · rcases List.mem_append.1 hother with hother | hother
    · exact h.same other hother
    · exact List.mem_singleton.1 hother ▸ hact
  · obtain ⟨hrow, hpool, htype, hsupports, ledger, hread⟩ := h.kept entry hentry
    exact ⟨hrow, hpool, htype, hsupports, ledger, List.mem_append_left _ hread⟩

/-- A row the filler may keep. -/
def Candidate (pool : PoolConfig) (rows : List TrackedAuction) (row : TrackedAuction) : Prop :=
  row ∈ rows ∧ row.pool = pool.address ∧ row.auctionType = .userLiquidation ∧
    pool.supports row.bid.keys row.lot.keys = true

/-- A walk before its snapshot: its rows, and those kept so far. -/
def Reading (pool : PoolConfig) (rows : List TrackedAuction) (live : List (TrackedAuction × AuctionData))
    (acts : List FillerAct) : Prop := Seeded acts ∧ ∃ earlier reads, Opened pool live acts earlier rows reads

theorem Reading.concat {rows : List TrackedAuction} {live : List (TrackedAuction × AuctionData)} {acts : List FillerAct}
    {act : FillerAct} (h : Reading pool rows live acts) (hact : act.isOpened = false) :
    Reading pool rows live (acts ++ [act]) := by
  obtain ⟨hseeded, earlier, reads, hopened⟩ := h
  exact ⟨hseeded.concat act, earlier, _, hopened.concat hact⟩

/-- The entry just read joins the rows kept. -/
theorem Reading.keep {rows : List TrackedAuction} {live : List (TrackedAuction × AuctionData)} {acts : List FillerAct}
    {row : TrackedAuction} {ledger : Nat} {auction : AuctionData} (h : Reading pool rows live acts)
    (hrow : Candidate pool rows row) :
    Reading pool rows (live ++ [(row, auction)])
      (acts ++ [.entry row.pool row.account (.ok (some (ledger, auction)))]) := by
  obtain ⟨hseeded, earlier, reads, hopened⟩ := h
  have hread := hopened.concat (show (FillerAct.entry row.pool row.account (.ok (some (ledger, auction)))).isOpened = false
    from rfl)
  refine ⟨hseeded.concat _, earlier, _, hread.acts_eq, hread.same, fun entry hentry => ?_⟩
  rcases List.mem_append.1 hentry with hentry | hentry
  · exact hread.kept entry hentry
  · rw [List.mem_singleton.1 hentry]
    exact ⟨hrow.1, hrow.2.1, hrow.2.2.1, hrow.2.2.2, ledger, by simp⟩

theorem readEntries_goes {rows candidates : List TrackedAuction} (hrows : ∀ row ∈ candidates, Candidate pool rows row)
    {kept : List (TrackedAuction × AuctionData)} :
    Goes f env (Reading pool rows kept) (readEntries candidates) fun live => Reading pool rows (kept ++ live) := by
  induction candidates generalizing kept with
  | nil => exact Goes.pure fun acts h => by rwa [List.append_nil]
  | cons row rest ih =>
    have hrest : ∀ other ∈ rest, Candidate pool rows other := fun other hother => hrows other (by simp [hother])
    unfold readEntries
    refine (stopping_goes fun acts _ h => h.concat rfl).bind fun requested => ?_
    cases requested with
    | true =>
      refine Goes.pure fun acts h => ?_
      rw [List.append_nil]
      exact h.1
    | false =>
      simp only [Bool.false_eq_true, ↓reduceIte]
      refine Ends.bind_caught readEntry_ends (fun read => ?_) fun error => ?_
      · refine Ends.bind_lift (fun other hother => ?_) fun s hs => hs.1.traced
        cases hother
        cases read with
        | live other auction =>
          refine Ends.bind (Q := fun live => At f (Reading pool rows (kept ++ [(other, auction)] ++ live)))
            (Goes.pre (ih hrest) ?_) fun live => Goes.pure fun acts h => by simpa using h
          rintro acts ⟨before, answer, h, rfl, hlive⟩
          obtain ⟨rfl, ledger, rfl⟩ := hlive other auction rfl
          exact h.1.keep (hrows other (by simp))
        | closed other =>
          refine Goes.pre ?_ fun acts h => show Reading pool rows kept acts from ?_
          · refine Goes.bind ?_ fun _ => Goes.bind count_goes fun _ => ih hrest
            exact update_goes fun _ => rfl
          · obtain ⟨before, answer, h, rfl, -⟩ := h
            exact h.1.concat rfl
        | unread =>
          refine Goes.pre (ih hrest) ?_
          rintro acts ⟨before, answer, h, rfl, -⟩
          exact h.1.concat rfl
      · exact Ends.bind_lift (fun other hother => nomatch hother) fun s hs => hs

/-- A snapshot that was read is on the record, its reads of one ledger. -/
theorem readSnapshot_goes {purpose : ReadFor} {address : String} {users : List String} :
    Goes f env P (readSnapshot purpose address users) fun answer acts => match answer with
      | none => P acts
      | some snapshot => ∃ before attempts, P before ∧ acts = before ++ [.snapshot purpose address attempts snapshot] ∧
          PoolReader.MadeAt snapshot attempts := by
  unfold readSnapshot
  refine Ends.bind_inside (A := fun _ answer attempts => ∀ snapshot, answer = .ok snapshot →
    PoolReader.MadeAt snapshot attempts) (fun s _ => ?_) fun answer attempts => ?_
  · refine Triple.conseq (Triple.and PoolReader.snapshot_stays PoolReader.snapshot_madeAt) (fun _ _ => ⟨trivial, trivial⟩)
      fun r part hr => ?_
    cases r with
    | ok snapshot =>
      intro other hother
      cases hother
      exact hr.2 snapshot rfl
    | err e => exact fun _ h => nomatch h
    | running => exact hr.1.1 rfl
  · cases answer with
    | error error => exact Ends.pure fun s hs => hs.1
    | ok snapshot =>
      refine Ends.bind_modify (fun s hs => ?_) (Ends.pure fun s hs => hs)
      exact ⟨hs.1.1.did trivial trivial, s.acts, attempts, hs.1.2, rfl, hs.2 snapshot rfl⟩

/-- The reads of the wallet so far. -/
theorem readBalances_ends (hlasts : Lasts P) {account : String} {assets : List String}
    {entries : List (String × Nat × Int)} {balances : BTreeMap String Int}
    (hbalances : balances = entries.foldl (fun balances entry => balances.insert entry.1 entry.2.2) ∅) :
    Goes f env (fun acts => P acts ∧ ∃ before, acts = before ++ entries.map fun entry => .balance entry.1 (.ok entry.2))
      (readBalances account balances assets) fun answer acts => P acts ∧ match answer with
        | .ok balances => ∃ before reads, acts = before ++ reads ∧ WalletRead reads (entries.map (·.1) ++ assets) balances
        | .error _ => ReadFailed acts := by
  induction assets generalizing entries balances with
  | nil =>
    refine Goes.pure fun acts h => ⟨h.1, ?_⟩
    obtain ⟨before, hacts⟩ := h.2
    exact ⟨before, _, hacts, entries, rfl, by simp, hbalances⟩
  | cons asset rest ih =>
    unfold readBalances
    refine Ends.bind_inside_stays (fun _ => PoolReader.balance_stays) fun answer => ?_
    obtain ⟨answer, _⟩ := answer
    refine Goes.bind (Goes.did (fun _ _ => trivial) trivial) fun _ => ?_
    cases answer with
    | ok read =>
      obtain ⟨ledger, amount⟩ := read
      have hrest := @ih (entries ++ [(asset, ledger, amount)]) (balances.insert asset amount)
        (by rw [List.foldl_concat, ← hbalances])
      have hassets : (entries ++ [(asset, ledger, amount)]).map (·.1) ++ rest = entries.map (·.1) ++ asset :: rest := by
        simp
      rw [hassets] at hrest
      refine Goes.pre hrest ?_
      rintro acts ⟨before, ⟨hp, earlier, rfl⟩, rfl⟩
      exact ⟨hlasts _ _ trivial hp, earlier, by simp⟩
    | error error =>
      refine Goes.pure ?_
      rintro acts ⟨before, ⟨hp, -⟩, rfl⟩
      exact ⟨hlasts _ _ trivial hp, before, asset, error, rfl⟩

/-- After a refresh the wallet is as it was read, or its read just failed. -/
theorem refreshInventory_ends (hlasts : Lasts P) {snapshot : FullSnapshot} :
    Ends env (At f P) (f.refreshInventory snapshot)
      (fun _ s => At f P s ∧ (f.executor.filler ≠ none → WalletAsRead s.acts snapshot s.core.balances))
      fun s => Traced f s.acts := by
  unfold refreshInventory
  split
  · next hkey => exact Ends.pure fun s hs => ⟨hs, fun h => absurd hkey h⟩
  next filler _ =>
  refine Ends.bind_modify (I := fun s => At f P s ∧ ∀ asset ∈ snapshot.assetIndex.keys, asset ∈ s.state.knownAssets)
    (fun s hs => ⟨hs, fun asset hasset => ?_⟩) (Ends.bind_ask fun now => Ends.bind_read fun fresh => ?_)
  · show asset ∈ f.known snapshot s.state
    rw [known, TreeMaps.mem_set_insert, TreeMaps.mem_set_extend]
    exact .inr (.inr hasset)
  cases fresh with
  | true =>
    refine Ends.pure fun s hs => ⟨hs.1.1, fun _ => .inl ⟨s.core.covered.toList, ?_⟩⟩
    obtain ⟨⟨⟨hsound, -⟩, -⟩, hfresh⟩ := hs
    simp only [walletFresh, Bool.and_eq_true, Bool.not_eq_true', List.all_eq_true, decide_eq_true_eq] at hfresh
    obtain ⟨⟨hstale, hcovered⟩, hread⟩ := hfresh
    refine ⟨hsound.wallet hstale fun hnone => ?_, fun asset hasset => Std.ExtTreeSet.mem_toList.2 (hcovered asset hasset)⟩
    have hnone : s.inventory.readAt = none := hnone
    simp [Inventory.stale, hnone] at hread
  | false =>
    refine Ends.pre (Ends.bind_read fun assets => Ends.pre (P := fun s =>
      (∀ asset ∈ snapshot.assetIndex.keys, asset ∈ assets) ∧ At f P s) (Triple.given fun hassets => ?_) fun s hs => ?_)
      fun s hs => hs.1
    · refine Ends.bind (Goes.pre (@readBalances_ends f env P hlasts filler assets.toList [] ∅ rfl)
        fun acts hp => ⟨hp, acts, by simp⟩) fun answer => ?_
      cases answer with
      | error error => exact Ends.pure fun s hs => ⟨⟨hs.1, hs.2.1⟩, fun _ => .inr hs.2.2⟩
      | ok balances =>
        refine Ends.bind_ask fun now => Ends.modify fun s hs => ?_
        obtain ⟨hsound, hp, before, reads, hacts, hread⟩ := hs
        have hsince : ReadSince s.acts assets.toList balances := ⟨before, reads, [], by simp [hacts], hread, quiet_nil⟩
        refine ⟨⟨hsound.renewed hsince _, hp⟩, fun _ => .inl ⟨assets.toList, hsince, fun asset hasset => ?_⟩⟩
        exact Std.ExtTreeSet.mem_toList.2 (hassets asset hasset)
    · obtain ⟨⟨hat, hknown⟩, rfl⟩ := hs
      exact ⟨hknown, hat⟩

/-! ## One pool's walk -/

theorem openAuctions_pool {store : Store} {address : String} {row : TrackedAuction}
    (h : row ∈ store.openAuctions address) : row.pool = address := by
  have hsort := (List.perm_insertionSort _ _).mem_iff.1 h
  simpa using (List.mem_filter.1 hsort).2

theorem considered_supports {tick : LedgerTick} {state : FillerState} {row : TrackedAuction}
    (h : f.considered pool tick state row = true) :
    row.auctionType = .userLiquidation ∧ pool.supports row.bid.keys row.lot.keys = true := by
  unfold considered at h
  split at h
  · cases h
  next htype =>
  split at h
  · cases h
  split at h
  · cases h
  · next hsupports => exact ⟨not_not.1 htype, by simpa using hsupports⟩

theorem Reading.walking {rows : List TrackedAuction} {live : List (TrackedAuction × AuctionData)}
    {snapshot : FullSnapshot} {attempts : List (List Read)} {acts : List FillerAct} (h : Reading pool rows live acts)
    (hmade : PoolReader.MadeAt snapshot attempts) :
    Seeded (acts ++ [.snapshot .walk pool.address attempts snapshot]) ∧
      Walking pool snapshot live (acts ++ [.snapshot .walk pool.address attempts snapshot]) := by
  obtain ⟨hseeded, earlier, reads, hopened⟩ := h
  exact ⟨hseeded.concat _, acts, earlier, rows, reads, attempts, [], hopened, rfl, hmade, quiet_nil⟩

theorem tickPool_goes {tick : LedgerTick} {execute armed : Bool} (hpool : pool ∈ f.pools) :
    Goes f env Seeded (f.tickPool tick execute armed pool) fun _ => Seeded := by
  unfold tickPool
  refine Goes.bind Goes.statement fun store => ?_
  refine Goes.bind (Goes.did (fun _ _ => trivial) trivial) fun _ => ?_
  refine Goes.pre ?_ fun acts h => show Reading pool (store.openAuctions pool.address) [] acts from ?_
  · refine Goes.bind (update_goes fun _ => rfl) fun _ => ?_
    refine Ends.bind_read fun candidates => ?_
    refine Ends.pre (P := fun s => (∀ row ∈ candidates, Candidate pool (store.openAuctions pool.address) row) ∧
      At f (Reading pool (store.openAuctions pool.address) []) s) (Triple.given fun hrows => ?_) fun s hs => ⟨?_, hs.1⟩
    · show Goes f env (Reading pool (store.openAuctions pool.address) []) _ fun _ => Seeded
      split
      · exact Goes.pure fun acts h => h.1
      refine Goes.bind (readEntries_goes hrows) fun live => ?_
      rw [List.nil_append]
      split
      · exact Goes.pure fun acts h => h.1
      refine Goes.bind (stopping_goes fun acts _ h => h.concat rfl) fun requested => ?_
      cases requested with
      | true => exact Goes.pure fun acts h => h.1.1
      | false =>
        simp only [Bool.false_eq_true, ↓reduceIte]
        refine Goes.bind readSnapshot_goes fun answer => ?_
        cases answer with
        | none => exact Goes.pure fun acts h => h.1.1
        | some snapshot =>
          refine Goes.pre ?_ fun acts h => show Seeded acts ∧ Walking pool snapshot live acts from ?_
          · refine Ends.bind (refreshInventory_ends (seeded_rides.and walking_rides).lasts) fun _ => ?_
            refine Ends.pre ?_ fun s hs => show At f (fun acts => Seeded acts ∧ Walking pool snapshot live acts) s from hs.1
            split
            · exact Goes.pure fun acts h => h.1
            · next hcontext => exact walk_goes hpool hcontext
          · obtain ⟨before, attempts, hreading, rfl, hmade⟩ := h
            exact hreading.1.walking hmade
    · obtain ⟨-, rfl⟩ := hs
      intro row hrow
      obtain ⟨hrow, hconsidered⟩ := List.mem_filter.1 hrow
      exact ⟨hrow, openAuctions_pool hrow, considered_supports hconsidered⟩
  · obtain ⟨before, hseeded, rfl⟩ := h
    exact ⟨hseeded.concat _, before, [], rfl, by simp, by simp⟩

end Reads

/-! ## The unwind passes -/

theorem owed_lasts {pool : String} : Lasts (Owed pool) := by
  intro acts act hneutral h
  rw [owed_concat]
  exact hneutral.owes.2 h

theorem passing_rides {pool : String} {snapshot : FullSnapshot} : Rides (Passing pool snapshot) := by
  rintro acts act hnone ⟨before, attempts, since, rfl, hquiet, howed, hholds⟩
  exact ⟨before, attempts, since ++ [act], by simp, hquiet.concat hnone, howed, hholds⟩

/-- A pass over `pool` that may submit. -/
def Due (pool : String) (acts : List FillerAct) : Prop := (Awake acts ∧ Seeded acts) ∧ Owed pool acts

theorem due_lasts {pool : String} : Lasts (Due pool) := fun acts act hneutral h =>
  ⟨(awake_rides.and seeded_rides).lasts acts act hneutral h.1, owed_lasts acts act hneutral h.2⟩

/-- The same with its snapshot, which holds what the pass is owed. -/
def Unwinding (pool : String) (snapshot : FullSnapshot) (acts : List FillerAct) : Prop :=
  Due pool acts ∧ Passing pool snapshot acts

theorem unwinding_lasts {pool : String} {snapshot : FullSnapshot} : Lasts (Unwinding pool snapshot) :=
  fun acts act hneutral h => ⟨due_lasts acts act hneutral h.1, passing_rides.lasts acts act hneutral h.2⟩

/-- A plan of this pass is on the record. -/
def Planned (pool : String) (snapshot : FullSnapshot) (acts : List FillerAct) : Prop :=
  Unwinding pool snapshot acts ∧ ∃ balances plan, .planned pool snapshot balances (.ok plan) ∈ acts

theorem Planned.unwound {pool : String} {snapshot : FullSnapshot} {acts : List FillerAct} {plan : UnwindPlan}
    {done : List ExecAct} {answer : Except ExecutorError UnwindOutcome} (h : Planned pool snapshot acts)
    (hnone : (FillerAct.unwind pool plan done answer).landing = none) :
    Planned pool snapshot (acts ++ [.unwind pool plan done answer]) := by
  obtain ⟨⟨⟨hawake, howed⟩, hpassing⟩, balances, other, hplan⟩ := h
  refine ⟨⟨⟨(awake_rides.and seeded_rides) acts _ hnone hawake, ?_⟩, passing_rides acts _ hnone hpassing⟩, balances, other,
    List.mem_append_left _ hplan⟩
  rw [owed_concat]
  exact .inl howed

section Unwinds

variable {f : Filler} {env : Nat → FillerMoment} {pool : String} {snapshot : FullSnapshot} {tick : LedgerTick}

/-- A pool that is pending no more. -/
theorem Sound.cleared {core : Core} {acts : List FillerAct} {why : ClearedBy} {after : BTreeMap String (Option Nat)}
    (h : Sound f core acts) (hgrounds : Grounds f acts (.cleared pool why))
    (hafter : ∀ other, after[other]? = (FillerAct.cleared pool why).marks other core.after[other]?) :
    Sound f { core with pending := core.pending.erase pool, after } (acts ++ [.cleared pool why]) := by
  refine h.concat hgrounds rfl (fun other => ?_) hafter ?_ fun hstale hread => (h.wallet hstale hread).concat rfl
  · show other ∈ core.pending.erase pool ↔ other ∈ core.pending ∧ pool ≠ other
    rw [TreeMaps.mem_set_erase]
    exact and_comm
  · rw [seeded_concat (by simp)]
    exact h.seeded

theorem clear_sound {s : FillerSystem} {why : ClearedBy} (h : Sound f s.core s.acts)
    (hgrounds : Grounds f s.acts (.cleared pool why)) (hwhy : why ≠ .noPosition) :
    Sound f (clear pool why s).core (clear pool why s).acts := by
  refine h.cleared hgrounds fun other => ?_
  cases why with
  | noPosition => exact absurd rfl hwhy
  | idle plan => rfl
  | planned => rfl

theorem Found.grounds {acts : List FillerAct} {why : ClearedBy} (h : Unwinding pool snapshot acts)
    (hfound : Found f pool snapshot acts why) : Grounds f acts (.cleared pool why) := ⟨h.1.2, snapshot, h.2, hfound⟩

theorem clear_ends {why : ClearedBy} {P : List FillerAct → Prop} (hp : ∀ acts, P acts → Unwinding pool snapshot acts)
    (hfound : ∀ acts, P acts → Found f pool snapshot acts why) (hwhy : why ≠ .noPosition) :
    Goes f env P (Prog.modify (clear pool why)) fun _ acts => ∃ before, P before ∧ acts = before ++ [.cleared pool why] :=
  Ends.modify fun s hs => ⟨clear_sound hs.1 ((hfound s.acts hs.2).grounds (hp s.acts hs.2)) hwhy, s.acts, hs.2, rfl⟩

theorem noteEmpty_goes {filler : String} (hkey : f.executor.filler = some filler)
    (hempty : nothingToUnwind (snapshot.positions.getD filler {}) = true) :
    Goes f env (Unwinding pool snapshot) (Prog.modify (noteEmpty pool)) fun _ => Seeded := by
  refine Ends.modify fun s hs => ⟨?_, hs.2.1.1.2.concat _⟩
  have hfound : Found f pool snapshot s.acts .noPosition := ⟨filler, hkey, hempty⟩
  refine hs.1.cleared (hfound.grounds hs.2) fun other => ?_
  show (s.state.unwindAfter.erase pool)[other]? = if pool = other then none else s.state.unwindAfter[other]?
  rw [TreeMaps.getElem?_erase]

theorem noteIdle_goes {plan : UnwindPlan} {balances : BTreeMap String Int} (hidle : plan.isIdle = true) :
    Goes f env (fun acts => ∃ before, Unwinding pool snapshot before ∧
      acts = before ++ [.planned pool snapshot balances (.ok plan)]) (noteIdle pool plan) fun _ => Seeded := by
  have hunwinding : ∀ acts, (∃ before, Unwinding pool snapshot before ∧
      acts = before ++ [.planned pool snapshot balances (.ok plan)]) → Unwinding pool snapshot acts := by
    rintro acts ⟨before, h, rfl⟩
    exact unwinding_lasts before _ trivial h
  unfold noteIdle
  refine Goes.bind (clear_ends hunwinding ?_ fun h => nomatch h) fun _ => ?_
  · rintro acts ⟨before, -, rfl⟩
    exact ⟨hidle, before, balances, rfl⟩
  refine Goes.pre ?_ fun acts h => show Seeded acts ∧ ∃ earlier, acts = earlier ++ [.cleared pool (.idle plan)] from ?_
  · split
    · refine Goes.conseq (update_goes fun _ => rfl) (fun _ h => h) ?_
      exact fun _ acts h => h.1
    refine Goes.bind_read fun notified => ?_
    cases notified with
    | true => exact Goes.pure fun _ h => h.1
    | false =>
      refine Goes.bind (update_goes fun _ => rfl) fun _ => ?_
      refine Goes.bind_ask fun delivery => ?_
      refine Goes.bind (Goes.did (fun acts h => ?_) trivial) fun _ => ?_
      · obtain ⟨-, earlier, rfl⟩ := h
        exact ⟨earlier, plan, rfl⟩
      · refine Goes.conseq (Q := fun _ acts => Seeded acts) ?_ (fun acts h => show Seeded acts from ?_) fun _ _ => id
        · refine update_goes fun s => ?_
          unfold FillerSystem.core
          split <;> rfl
        · obtain ⟨before, h, rfl⟩ := h
          exact h.1.concat _
  · obtain ⟨before, h, rfl⟩ := h
    exact ⟨(hunwinding before h).1.1.2.concat _, before, rfl⟩

theorem noteSetback_goes {P : List FillerAct → Prop} : Goes f env P (noteSetback tick pool) fun _ => P :=
  update_goes fun _ => rfl

/-- What an unwind's answer leaves: it is noted, or it is all that is owed to
the record. -/
theorem noteUnwound_goes {plan : UnwindPlan} {outcome : UnwindOutcome} :
    Ends env (Handed f (Planned pool snapshot) (.unwind pool plan) (.ok outcome)) (f.noteUnwound tick pool outcome)
      (fun _ => At f Seeded) fun s => Traced f s.acts := by
  have hnoting : ∀ s, Handed f (Planned pool snapshot) (.unwind pool plan) (.ok outcome) s →
      Noting f (Planned pool snapshot) (outcome.landing.map (pool, ·)) s := fun s hs =>
    hs.noting (fun acts hp => hp.1.1.1.2) (fun acts done hnone hp => hp.unwound hnone) (fun _ h => nomatch h) fun _ => rfl
  have hsetback : outcome.landing = none →
      Ends env (Handed f (Planned pool snapshot) (.unwind pool plan) (.ok outcome)) (noteSetback tick pool)
        (fun _ => At f Seeded) fun s => Traced f s.acts := by
    intro hnone
    refine Ends.conseq noteSetback_goes (fun s hs => ?_) fun _ s hs => show At f Seeded s from hs
    have h := hnoting s hs
    rw [hnone] at h
    exact ⟨h.1, h.2.1⟩
  cases outcome with
  | refused contractError => exact hsetback rfl
  | stale => exact hsetback rfl
  | planned simulated =>
    refine Ends.pre ?_ fun s hs => show At f (Planned pool snapshot) s from (hnoting s hs).quiet
    unfold noteUnwound
    dsimp only
    split
    · next hdry =>
      refine Ends.bind (clear_ends (fun acts h => h.1) (fun acts h => ⟨hdry, h.2⟩) fun h => nomatch h) fun _ => ?_
      refine Ends.conseq count_goes (fun s hs => hs) fun _ s hs => ?_
      obtain ⟨hsound, before, h, hacts⟩ := hs
      refine ⟨hsound, ?_⟩
      rw [hacts]
      exact h.1.1.1.2.concat _
    · refine Ends.conseq (update_goes fun _ => rfl) (fun s hs => hs) ?_
      exact fun _ s hs => ⟨hs.1, hs.2.1.1.1.2⟩
  | submitted outcome =>
    unfold noteUnwound
    dsimp only
    split
    · next landed hlanded =>
      refine Ends.bind_modify (I := At f Seeded) (fun s hs => ?_) count_goes
      have hpending : pool ∈ s.core.pending := by
        obtain ⟨before, done, hp, -, -, hpending, -⟩ := hs
        exact (hpending pool).2 hp.1.1.2
      obtain ⟨hsound, hseeded, -⟩ := hnoting s hs
      rw [show (UnwindOutcome.submitted outcome).landing = some landed from hlanded] at hsound
      refine ⟨hsound.pending_congr fun other => ?_, hseeded⟩
      show other ∈ s.core.pending ↔ other ∈ s.core.pending.insert pool
      rw [TreeMaps.mem_set_insert]
      constructor
      · exact .inr
      · rintro (rfl | h)
        · exact hpending
        · exact h
    · next hnone => exact hsetback hnone

theorem executeUnwind_goes {plan : UnwindPlan} {armed : Bool} :
    Goes f env (Planned pool snapshot) (f.executeUnwind tick pool plan armed) fun _ => Seeded := by
  unfold executeUnwind
  refine Ends.bind settlementFor_goes fun settlement => ?_
  cases settlement with
  | none => exact Ends.conseq skipped_goes (fun s hs => hs) fun _ s hs => ⟨hs.1, hs.2.1.1.1.2⟩
  | some settlement =>
    dsimp only
    refine Ends.bind (unwind_handed fun acts hp => hp.1.1) fun answer => ?_
    cases answer with
    | ok outcome => exact noteUnwound_goes
    | error error =>
      cases error with
      | store inner => exact Ends.fail fun s ⟨_, _, _, _, htraced, _⟩ => htraced
      | chain _ | xdr _ | queue _ | mode _ =>
        refine Ends.conseq noteSetback_goes (fun s hs => ?_) fun _ s hs => show At f Seeded s from hs
        have h := hs.noting (fun acts hp => hp.1.1.1.2) (fun acts done hnone hp => hp.unwound hnone)
          (fun _ h => nomatch h) fun _ => rfl
        exact ⟨h.1, h.2.1⟩

/-- A snapshot that holds what the pass is owed. -/
theorem Due.unwinding {address : String} {attempts : List (List Read)} {acts : List FillerAct} (h : Due address acts)
    (hholds : holdsIt (mark address acts) snapshot.ledger = true) :
    Unwinding address snapshot (acts ++ [.snapshot .unwind address attempts snapshot]) :=
  ⟨due_lasts acts _ trivial h, acts, attempts, [], rfl, quiet_nil, h.2, hholds⟩

theorem unwindPool_goes {execute armed : Bool} {filler : String} {pool : PoolConfig}
    (hkey : f.executor.filler = some filler) (hpool : pool ∈ f.pools) :
    Goes f env (Due pool.address) (f.unwindPool tick execute armed filler pool) fun _ => Seeded := by
  unfold unwindPool
  refine Goes.bind readSnapshot_goes fun answer => ?_
  cases answer with
  | none => exact Goes.pure fun acts h => h.1.2
  | some snapshot =>
    refine Ends.bind_read fun landed => ?_
    by_cases hholds : holdsIt landed snapshot.ledger = true
    · rw [hholds]
      simp only [Bool.not_true, Bool.false_eq_true, ↓reduceIte]
      refine Ends.pre ?_ fun s hs => show At f (Unwinding pool.address snapshot) s from ?_
      · split
        · next hempty => exact noteEmpty_goes hkey hempty
        refine Ends.bind (refreshInventory_ends unwinding_lasts) fun _ => ?_
        split
        · exact Ends.pure fun s hs => ⟨hs.1.1, hs.1.2.1.1.2⟩
        next reserves hreserves =>
        refine Ends.bind_read fun inventory => ?_
        refine Ends.bind_modify (I := At f fun acts => ∃ before, Unwinding pool.address snapshot before ∧ acts = before ++
          [.planned pool.address snapshot inventory.balances
            (unwindPlan pool snapshot (snapshot.positions.getD filler {}) reserves inventory)]) (fun s hs => ?_) ?_
        · obtain ⟨⟨⟨hsound, h⟩, hwallet⟩, rfl⟩ := hs
          have hread := hwallet (by rw [hkey]; simp)
          refine ⟨hsound.did ⟨h.1.2, h.2, hread, ?_⟩ trivial, s.acts, h, rfl⟩
          exact ⟨pool, filler, tick, reserves, s.inventory, hpool, rfl, hkey, hreserves, rfl, rfl⟩
        · generalize unwindPlan pool snapshot (snapshot.positions.getD filler {}) reserves inventory = answer
          cases answer with
          | error error =>
            refine Goes.pure ?_
            rintro acts ⟨before, h, rfl⟩
            exact h.1.1.2.concat _
          | ok plan =>
            dsimp only
            split
            · next hidle => exact noteIdle_goes hidle
            refine Goes.pre ?_ fun acts h => show Planned pool.address snapshot acts from ?_
            · split
              · exact Goes.pure fun acts h => h.1.1.1.2
              · exact executeUnwind_goes
            · obtain ⟨before, h, rfl⟩ := h
              exact ⟨unwinding_lasts before _ trivial h, inventory.balances, plan, by simp⟩
      · obtain ⟨⟨hsound, before, attempts, hdue, hacts, -⟩, hmark⟩ := hs
        refine ⟨hsound, ?_⟩
        have hafter : s.core.after[pool.address]? = mark pool.address s.acts := hsound.marks pool.address
        rw [hacts] at hafter ⊢
        refine hdue.unwinding ?_
        rw [mark_concat] at hafter
        have hsame : mark pool.address before = landed := hafter.symm.trans hmark
        rw [hsame]
        exact hholds
    · rw [Bool.not_eq_true] at hholds
      rw [hholds]
      refine Ends.pure fun s hs => ⟨hs.1.1, ?_⟩
      obtain ⟨⟨-, before, attempts, hdue, hacts, -⟩, -⟩ := hs
      rw [hacts]
      exact hdue.1.2.concat _

theorem unwindWalk_goes {execute armed : Bool} {filler : String} {pools : List PoolConfig}
    (hkey : f.executor.filler = some filler) (hpools : ∀ pool ∈ pools, pool ∈ f.pools) :
    Goes f env Seeded (f.unwindWalk tick execute armed filler pools) fun _ => Seeded := by
  induction pools with
  | nil => exact Goes.pure fun _ h => h
  | cons pool rest ih =>
    have ih := ih fun other hother => hpools other (by simp [hother])
    unfold unwindWalk
    refine Goes.bind (stopping_goes fun acts _ h => h.concat _) fun requested => ?_
    cases requested with
    | true => exact Goes.pure fun _ h => h.1
    | false =>
      refine Ends.bind_read fun made => ?_
      cases made with
      | false => exact Ends.pre ih fun s hs => ⟨hs.1.1, hs.1.2.1⟩
      | true =>
        have hpool : pool ∈ f.pools := hpools pool List.mem_cons_self
        refine Ends.pre (Goes.bind (unwindPool_goes hkey hpool) fun _ => ih) fun s hs => ?_
        refine ⟨hs.1.1, ⟨hs.1.2.2 rfl, hs.1.2.1⟩, ?_⟩
        have hpending : pool.address ∈ s.state.unwindPending := by
          have hmade := hs.2
          simp only [passes, Bool.and_eq_true, decide_eq_true_eq] at hmade
          exact hmade.1
        exact (hs.1.1.pending pool.address).1 hpending

theorem dropPending_sound {s : FillerSystem} (hkey : f.executor.filler = none) (h : Sound f s.core s.acts) :
    Sound f (dropPending s).core (dropPending s).acts := by
  unfold dropPending
  split
  · exact h
  refine h.concat hkey rfl (fun other => ?_) (fun other => ?_) ?_ fun hstale hread => (h.wallet hstale hread).concat rfl
  · show other ∈ (∅ : BTreeSet String) ↔ False
    simp
  · show (∅ : BTreeMap String (Option Nat))[other]? = none
    simp
  · rw [seeded_concat (by simp)]
    exact h.seeded

theorem unwindPasses_goes {execute armed : Bool} :
    Goes f env Seeded (f.unwindPasses tick execute armed) fun _ => Seeded := by
  unfold unwindPasses
  split
  · next hkey =>
    refine Ends.modify fun s hs => ⟨dropPending_sound hkey hs.1, ?_⟩
    unfold dropPending
    split
    · exact hs.2
    · exact hs.2.concat _
  · next hkey => exact unwindWalk_goes hkey fun _ h => h

end Unwinds

/-! ## The loop -/

section Loop

variable {f : Filler} {env : Nat → FillerMoment}

theorem seed_goes : Goes f env (fun _ => True) (Prog.modify f.seed) fun _ => Seeded := by
  refine Ends.modify fun s hs => ?_
  have hseeded : s.state.unwindSeeded = true ↔ Seeded s.acts := hs.1.seeded
  unfold seed
  split
  · next h => exact ⟨hs.1, hseeded.1 h⟩
  · next h =>
    have hnow : Seeded (s.acts ++ [FillerAct.seeded (f.pools.map (·.address))]) :=
      ⟨f.pools.map (·.address), List.mem_append_right _ (List.mem_singleton_self _)⟩
    refine ⟨hs.1.concat (fun hbefore => h (hseeded.2 hbefore)) rfl (fun other => ?_) (fun other => rfl)
      (iff_of_true rfl hnow) fun hstale hread => (hs.1.wallet hstale hread).concat rfl, hnow⟩
    show other ∈ s.state.unwindPending.insertMany (f.pools.map (·.address)) ↔ _
    rw [TreeMaps.mem_set_extend]
    exact Iff.rfl

theorem tickPools_goes {tick : LedgerTick} {execute armed : Bool} {pools : List PoolConfig}
    (hpools : ∀ pool ∈ pools, pool ∈ f.pools) :
    Goes f env Seeded (f.tickPools tick execute armed pools) fun _ => Seeded := by
  induction pools with
  | nil => exact Goes.pure fun _ h => h
  | cons pool rest ih =>
    unfold tickPools
    refine Goes.bind (stopping_goes fun acts _ h => h.concat _) fun requested => ?_
    cases requested with
    | true => exact Goes.pure fun _ h => h.1
    | false =>
      refine Goes.bind (Goes.pre (tickPool_goes (hpools pool (by simp))) fun _ h => h.1) fun _ => ?_
      exact ih fun other hother => hpools other (by simp [hother])

theorem tick_goes {tick : LedgerTick} {execute armed : Bool} :
    Goes f env (fun _ => True) (f.tick tick execute armed) fun _ _ => True := by
  unfold Filler.tick
  refine Goes.bind seed_goes fun _ => Goes.bind count_goes fun _ => ?_
  refine Goes.bind (tickPools_goes fun _ h => h) fun _ => Goes.bind unwindPasses_goes fun _ => ?_
  exact fun t s hs => ⟨hs.1, trivial⟩

theorem turn_goes {armed : Bool} : Goes f env (fun _ => True) (f.turn armed) fun _ _ => True := by
  unfold turn
  refine Goes.bind_ask fun tick => ?_
  cases tick with
  | none => exact Goes.pure fun _ h => h
  | some ledger =>
    refine Goes.bind (stopping_goes fun _ _ h => h) fun requested => ?_
    cases requested with
    | true => exact Goes.pure fun _ _ => trivial
    | false =>
      refine Goes.pre ?_ fun acts _ => trivial
      refine Goes.bind (Goes.modify (fun _ => rfl) fun _ => rfl) fun _ => Goes.bind_read fun execute => ?_
      exact Goes.bind tick_goes fun _ => Goes.pure fun _ h => h

theorem start_sound {feeReserve : UInt64} : Sound f (f.start feeReserve).core (f.start feeReserve).acts where
  pending pool := by
    show pool ∈ (∅ : BTreeSet String) ↔ False
    simp
  marks pool := by
    show (∅ : BTreeMap String (Option Nat))[pool]? = none
    simp
  seeded := by
    refine iff_of_false Bool.false_ne_true ?_
    rintro ⟨pools, hpools⟩
    cases hpools
  wallet := fun _ hread => absurd rfl hread
  noted := fun _ h => nomatch h
  traced := Traces.before_nil

/-- **Every run leaves every act justified**, and unless the store failed,
remembers what its record makes of it. -/
theorem run_traced (f : Filler) (armed : Bool) (feeReserve : UInt64) (env : Nat → FillerMoment) (fuel : Nat) :
    Traced f (f.run armed feeReserve env fuel).2.acts ∧
      ((∀ error, (f.run armed feeReserve env fuel).1 ≠ .err error) →
        Sound f (f.run armed feeReserve env fuel).2.core (f.run armed feeReserve env fuel).2.acts) := by
  have hloop : Triple env (At f fun _ => True) (f.fillerLoop armed fuel) _ :=
    Ends.repeatUntil (Ends.conseq turn_goes (fun _ => id) fun o s hs => by cases o <;> exact hs)
  have hrun := hloop 0 (f.start feeReserve) ⟨start_sound, trivial⟩
  unfold run
  generalize f.fillerLoop armed fuel env 0 (f.start feeReserve) = ran at hrun ⊢
  obtain ⟨r, t, s⟩ := ran
  cases r with
  | ok a => exact ⟨hrun.1.traced, fun _ => hrun.1⟩
  | err e => exact ⟨hrun, fun h => absurd rfl (h e)⟩
  | running => exact ⟨hrun.1.traced, fun _ => hrun.1⟩

end Loop

end Filler

end BlendLiquidator
