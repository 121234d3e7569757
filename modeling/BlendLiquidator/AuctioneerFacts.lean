/-
What an action sends, and how far the percent walk reaches.

Whatever the simulations answer, the operation, the recorded row and the
percent stay one: the walk answers with the operation it had accepted last, the
row is built from what the walk answered, and only then is the operation sent.
Where the contract accepts one interval of percents and says on which side of it
a refused one lies, each attempt comes one percent closer, so the walk arrives
if it has more attempts than there are percents between.
-/
import BlendLiquidator.Auctioneer
import BlendLiquidator.Results

namespace BlendLiquidator

open Calls Results

def ActCall.enqueues : ActCall → Bool
  | .enqueue _ => true
  | _ => false

def ActCall.simulates : ActCall → Bool
  | .simulateOnly _ => true
  | _ => false

/-- How many simulations are on the record. -/
def simulations (l : List (Entry ActCall.Answer)) : Nat := l.countP (·.1.simulates)

/-- The row says what the operation does: its kind, percent, bid and lot. -/
def CreationRecord.Describes (xdr : XdrLibrary) (record : CreationRecord) (operation : Operation) : Prop :=
  match record.kind, record.percent with
  | .auction, some percent =>
    xdr.newAuctionOp record.pool record.account record.bid record.lot percent = .ok operation
  | .badDebt, none => xdr.badDebtOp record.pool record.account = .ok operation ∧ record.bid = [] ∧ record.lot = []
  | _, _ => False

/-- The contract was shown the operation, and let it through. -/
def JudgedIn (l : List (Entry ActCall.Answer)) (operation : Operation) : Prop :=
  (⟨.simulateOnly operation, .ok .accepted⟩ : Entry ActCall.Answer) ∈ l

namespace Auctioneer

variable {auctioneer : Auctioneer} {pool account : String} {plan : LiquidationPlan} {l : List (Entry ActCall.Answer)}

/-- What is on record when an operation is handed to the queue. -/
def BeforeSending (auctioneer : Auctioneer) (pool account : String) (l : List (Entry ActCall.Answer)) : ActCall → Prop
  | .enqueue submission =>
    (auctioneer.submitter = true ∧ auctioneer.dryRun = false) ∧ (∀ e ∈ l, e.1.enqueues = false) ∧
      JudgedIn l submission.operation ∧
      ∃ record creationId, (⟨.recordCreation record, .ok creationId⟩ : Entry ActCall.Answer) ∈ l ∧
        record.pool = pool ∧ record.account = account ∧ record.Describes auctioneer.xdr submission.operation
  | _ => True

/-- What the walk calls: simulations of the plan at a percent, as long as there
are attempts left, and for an auction in progress what adopts it. -/
def Walking (auctioneer : Auctioneer) (pool account : String) (plan : LiquidationPlan) (l : List (Entry ActCall.Answer)) :
    ActCall → Prop
  | .simulateOnly operation => simulations l < auctioneer.planIterations ∧
    ∃ percent : FillPercent, (1 ≤ percent.get ∧ percent.get ≤ 100) ∧
      auctioneer.xdr.newAuctionOp pool account plan.bid plan.lot percent = .ok operation
  | .auctions _ => True
  | .recordCreation _ | .enqueue _ | .attachCreationTx _ _ => False

theorem Walking.not_enqueues {o : ActCall} (h : auctioneer.Walking pool account plan l o) : o.enqueues = false := by
  cases o with
  | enqueue submission => exact h.elim
  | simulateOnly operation => rfl
  | recordCreation record => rfl
  | attachCreationTx creationId hash => rfl
  | auctions call => rfl

/-- What a walk ends with: nothing, or what it had accepted last. -/
structure Walked (auctioneer : Auctioneer) (pool account : String) (plan : LiquidationPlan)
    (l : List (Entry ActCall.Answer)) (r : Except AuctioneerError (Option (FillPercent × Operation × Bool))) : Prop where
  bounded : simulations l ≤ auctioneer.planIterations
  judged : ∀ percent operation simulated, r = .ok (some (percent, operation, simulated)) →
    auctioneer.xdr.newAuctionOp pool account plan.bid plan.lot percent = .ok operation ∧
    (auctioneer.submitter = true → JudgedIn l operation)

theorem Walked.none (h : simulations l ≤ auctioneer.planIterations) :
    auctioneer.Walked pool account plan l (.ok none) :=
  ⟨h, nofun⟩

theorem Walked.error {error : AuctioneerError} (h : simulations l ≤ auctioneer.planIterations) :
    auctioneer.Walked pool account plan l (.error error) :=
  ⟨h, nofun⟩

theorem simulations_append (o : ActCall) (answer : o.Answer) :
    simulations (l ++ [⟨o, answer⟩]) = simulations l + if o.simulates then 1 else 0 := by
  simp [simulations, List.countP_append, List.countP_cons]

/-- A simulation is one call; what follows it holds of each judgment, and of
each failure to reach one. -/
theorem Keeps.bind_simulate {β : Type} {A : List (Entry ActCall.Answer) → (o : ActCall) → o.Answer → Prop}
    {P : List (Entry ActCall.Answer) → ActCall → Prop} {R : List (Entry ActCall.Answer) → Except AuctioneerError β → Prop}
    {operation : Operation} {f : Judgment → Acting β} (hp : P l (.simulateOnly operation))
    (hok : ∀ judgment, A l (.simulateOnly operation) (.ok judgment) →
      Keeps A P R (l ++ [⟨.simulateOnly operation, .ok judgment⟩]) (f judgment))
    (herr : ∀ error, A l (.simulateOnly operation) (.error error) →
      R (l ++ [⟨.simulateOnly operation, .error error⟩]) (.error (.chain error))) :
    Keeps A P R l (simulate operation >>= f) := by
  refine ⟨hp, fun answer hanswer => ?_⟩
  cases answer with
  | ok judgment => exact hok judgment hanswer
  | error error => exact herr error hanswer

/-! ## The walk -/

theorem refusePercent_keeps {contractError : Option Nat} (h : simulations l ≤ auctioneer.planIterations) :
    Keeps (fun _ _ _ => True) (auctioneer.Walking pool account plan) (auctioneer.Walked pool account plan) l
      (refusePercent pool account contractError) := by
  unfold refusePercent
  split
  · refine Keeps.bind (Keeps.embed (I := fun l => simulations l ≤ auctioneer.planIterations) (fun _ _ _ => trivial)
      (fun l o a hl => ?_) h) (fun _ _ hl => .none hl) fun _ _ hl => .error hl
    rw [simulations_append]
    exact hl
  · exact Walked.none h

theorem walkPercent_keeps {iterations : Nat} {percent : FillPercent}
    (h : simulations l + iterations ≤ auctioneer.planIterations) :
    Keeps (fun _ _ _ => True) (auctioneer.Walking pool account plan) (auctioneer.Walked pool account plan) l
      (auctioneer.walkPercent pool account plan iterations percent) := by
  induction iterations generalizing l percent with
  | zero => exact Walked.none h
  | succ iterations ih =>
    unfold walkPercent
    refine Keeps.bind_lift (fun operation hbuilt => ?_) fun error _ => .error (by omega)
    have hoperation := mapError_ok_iff.1 hbuilt
    have hcount : ∀ answer,
        simulations (l ++ [⟨.simulateOnly operation, answer⟩]) + iterations ≤ auctioneer.planIterations := by
      intro answer
      rw [simulations_append, if_pos (show (ActCall.simulateOnly operation).simulates = true from rfl)]
      omega
    have hbounded : ∀ answer,
        simulations (l ++ [⟨.simulateOnly operation, answer⟩]) ≤ auctioneer.planIterations := fun answer =>
      (Nat.le_add_right _ _).trans (hcount answer)
    refine Keeps.bind_simulate ⟨by omega, percent, ⟨percent.one_le, percent.le_hundred⟩, hoperation⟩ (fun judgment _ => ?_)
      fun error _ => .error (hbounded _)
    cases judgment with
    | accepted =>
      refine ⟨hbounded _, fun p op simulated heq => ?_⟩
      cases heq
      exact ⟨hoperation, fun _ => List.mem_append_right _ (List.mem_singleton_self _)⟩
    | needsRestore => exact Walked.none (hbounded _)
    | refused contractError message =>
      dsimp only
      split
      · split
        · exact ih (hcount _)
        · exact Walked.none (hbounded _)
      split
      · split
        · exact ih (hcount _)
        · exact Walked.none (hbounded _)
      · exact refusePercent_keeps (hbounded _)

theorem acceptPercent_keeps :
    Keeps (fun _ _ _ => True) (auctioneer.Walking pool account plan) (auctioneer.Walked pool account plan) []
      (auctioneer.acceptPercent pool account plan) := by
  unfold acceptPercent
  split
  · exact walkPercent_keeps (by simp [simulations])
  · next hunsigned =>
    refine Keeps.bind_lift (fun operation hbuilt => ⟨Nat.zero_le _, fun p op simulated heq => ?_⟩) fun error _ =>
      .error (Nat.zero_le _)
    cases heq
    exact ⟨mapError_ok_iff.1 hbuilt, fun hsigner => absurd hsigner hunsigned⟩

/-! ## An interval of percents -/

/-- The contract accepts the percents from `a` to `b`, and refuses one outside
them as too small or too large. -/
def Banded (auctioneer : Auctioneer) (pool account : String) (plan : LiquidationPlan) (a b : Nat)
    (_ : List (Entry ActCall.Answer)) : (o : ActCall) → o.Answer → Prop
  | .simulateOnly operation, answer => ∀ percent : FillPercent,
    auctioneer.xdr.newAuctionOp pool account plan.bid plan.lot percent = .ok operation →
      (percent.get < a → ∃ message, answer = .ok (.refused (some INVALID_LIQ_TOO_SMALL) message)) ∧
      (b < percent.get → ∃ message, answer = .ok (.refused (some INVALID_LIQ_TOO_LARGE) message)) ∧
      (a ≤ percent.get → percent.get ≤ b → answer = .ok .accepted)
  | _, _ => True

/-- How far a percent is from the interval. -/
def distance (a b percent : Nat) : Nat := (a - percent) + (percent - b)

/-- The walk's end on an interval: an accepted percent where it gets that far. -/
def Arrived (auctioneer : Auctioneer) (pool account : String) (plan : LiquidationPlan) (a b iterations start : Nat)
    (r : Except AuctioneerError (Option (FillPercent × Operation × Bool))) : Prop :=
  (distance a b start < iterations →
    ∃ (percent : FillPercent) (operation : Operation), r = .ok (some (percent, operation, true)) ∧
      (a ≤ percent.get ∧ percent.get ≤ b) ∧
      auctioneer.xdr.newAuctionOp pool account plan.bid plan.lot percent = .ok operation) ∧
  (iterations ≤ distance a b start → r = .ok none)

theorem FillPercent.tryFrom_of_mem {value : Nat} (h : 1 ≤ value) (h' : value ≤ 100) :
    FillPercent.tryFrom value = some ⟨value, h, h'⟩ := by
  rw [FillPercent.tryFrom, dif_pos ⟨h, h'⟩]

/-- One percent closer with one attempt less. -/
theorem Arrived.closer {a b iterations start next : Nat} (h : distance a b start = distance a b next + 1)
    {r : Except AuctioneerError (Option (FillPercent × Operation × Bool))}
    (harrived : auctioneer.Arrived pool account plan a b iterations next r) :
    auctioneer.Arrived pool account plan a b (iterations + 1) start r := by
  exact ⟨fun hnear => harrived.1 (by omega), fun hfar => harrived.2 (by omega)⟩

theorem walkPercent_arrives {a b : Nat} (ha : 1 ≤ a) (hab : a ≤ b) (hb : b ≤ 100)
    (hbuilds : ∀ percent, ∃ operation, auctioneer.xdr.newAuctionOp pool account plan.bid plan.lot percent = .ok operation)
    {iterations : Nat} {percent : FillPercent} :
    Keeps (auctioneer.Banded pool account plan a b) (fun _ o => o.simulates = true)
      (fun _ r => auctioneer.Arrived pool account plan a b iterations percent.get r) l
      (auctioneer.walkPercent pool account plan iterations percent) := by
  induction iterations generalizing l percent with
  | zero => exact ⟨fun hnear => absurd hnear (Nat.not_lt_zero _), fun _ => rfl⟩
  | succ iterations ih =>
    obtain ⟨operation, hoperation⟩ := hbuilds percent
    unfold walkPercent built
    rw [hoperation]
    have hpercent := percent.le_hundred
    refine Keeps.bind_simulate rfl (fun judgment hanswer => ?_) fun error hanswer => ?_
    · obtain ⟨hsmall, hlarge, hinside⟩ := hanswer percent hoperation
      by_cases hlow : percent.get < a
      · obtain ⟨message, hrefused⟩ := hsmall hlow
        obtain rfl := Except.ok.inj hrefused
        have hnext : FillPercent.tryFrom (percent.get + 1) = some ⟨percent.get + 1, by omega, by omega⟩ :=
          FillPercent.tryFrom_of_mem (by omega) (by omega)
        dsimp only
        rw [if_pos rfl, hnext]
        refine ih.mono (fun _ _ => id) fun _ _ => Arrived.closer ?_
        simp only [distance]
        omega
      by_cases hhigh : b < percent.get
      · obtain ⟨message, hrefused⟩ := hlarge hhigh
        obtain rfl := Except.ok.inj hrefused
        have hnext : FillPercent.tryFrom (percent.get - 1) = some ⟨percent.get - 1, by omega, by omega⟩ :=
          FillPercent.tryFrom_of_mem (by omega) (by omega)
        dsimp only
        rw [if_neg (by decide), if_pos rfl, hnext]
        refine ih.mono (fun _ _ => id) fun _ _ => Arrived.closer ?_
        simp only [distance]
        omega
      · obtain rfl := Except.ok.inj (hinside (by omega) (by omega))
        have hinterval : distance a b percent.get = 0 := by
          simp only [distance]
          omega
        refine ⟨fun _ => ⟨percent, operation, rfl, ⟨by omega, by omega⟩, hoperation⟩, fun hfar => ?_⟩
        omega
    · -- inside the interval or outside it, the contract has answered
      obtain ⟨hsmall, hlarge, hinside⟩ := hanswer percent hoperation
      by_cases hlow : percent.get < a
      · obtain ⟨message, hrefused⟩ := hsmall hlow
        cases hrefused
      by_cases hhigh : b < percent.get
      · obtain ⟨message, hrefused⟩ := hlarge hhigh
        cases hrefused
      · cases hinside (by omega) (by omega)

/-! ## Acting -/

/-- What is known of an accepted decision: its row describes its operation, and
with a key the contract has let it through. -/
structure Sound (auctioneer : Auctioneer) (pool account : String) (l : List (Entry ActCall.Answer)) (accepted : Accepted) :
    Prop where
  describes : ∀ tick, (auctioneer.creation pool account tick accepted).Describes auctioneer.xdr accepted.operation
  judged : auctioneer.submitter = true → JudgedIn l accepted.operation

theorem acceptBadDebt_keeps {operation : Operation} :
    Keeps (fun _ _ _ => True) (fun _ o => o.enqueues = false)
      (fun l r => ∀ simulated, r = .ok (some simulated) → auctioneer.submitter = true → JudgedIn l operation) []
      (auctioneer.acceptBadDebt operation) := by
  unfold acceptBadDebt
  split
  · refine Keeps.bind_simulate rfl (fun judgment _ => ?_) fun error _ => nofun
    cases judgment with
    | accepted =>
      intro simulated _ _
      exact List.mem_singleton_self _
    | refused contractError message => exact nofun
    | needsRestore => exact nofun
  · next hunsigned => exact fun _ _ hsigner => absurd hsigner hunsigned

theorem accept_keeps {decision : Decision} :
    Keeps (fun _ _ _ => True) (fun _ o => o.enqueues = false)
      (fun l r => ∀ accepted, r = .ok (.ok accepted) → auctioneer.Sound pool account l accepted) []
      (auctioneer.accept pool account decision) := by
  cases decision with
  | skip reason => exact fun _ hskipped => by cases hskipped
  | badDebt =>
    refine Keeps.bind_lift (fun operation hbuilt => ?_) fun _ _ _ hfailed => by cases hfailed
    have hoperation := mapError_ok_iff.1 hbuilt
    refine acceptBadDebt_keeps.bind (fun l answer hjudged => ?_) fun _ _ _ _ hfailed => by cases hfailed
    cases answer with
    | none => exact fun _ hrefused => by cases hrefused
    | some simulated =>
      intro accepted haccepted
      cases haccepted
      exact ⟨fun tick => ⟨hoperation, rfl, rfl⟩, hjudged simulated rfl⟩
  | liquidate plan =>
    have hwalk : Keeps (fun _ _ _ => True) (fun _ o => o.enqueues = false) (auctioneer.Walked pool account plan) []
        (auctioneer.acceptPercent pool account plan) :=
      acceptPercent_keeps.mono (fun _ _ h => h.not_enqueues) fun _ _ h => h
    refine hwalk.bind (fun l answer hwalked => ?_) fun _ _ _ _ hfailed => by cases hfailed
    cases answer with
    | none => exact fun _ hrefused => by cases hrefused
    | some answer =>
      obtain ⟨percent, operation, simulated⟩ := answer
      intro accepted haccepted
      cases haccepted
      obtain ⟨hoperation, hjudged⟩ := hwalked.judged percent operation simulated rfl
      exact ⟨fun tick => hoperation, hjudged⟩

/-- Nothing was handed to the queue yet. -/
def NothingSent (l : List (Entry ActCall.Answer)) : Prop := ∀ e ∈ l, e.1.enqueues = false

/-- How many operations were handed to the queue. -/
def sends (l : List (Entry ActCall.Answer)) : Nat := l.countP (·.1.enqueues)

theorem NothingSent.sends (h : NothingSent l) : sends l = 0 := by
  unfold Auctioneer.sends
  rw [List.countP_eq_zero]
  intro e he
  rw [h e he]
  exact Bool.false_ne_true

theorem sends_append (o : ActCall) (answer : o.Answer) :
    sends (l ++ [⟨o, answer⟩]) = sends l + if o.enqueues then 1 else 0 := by
  simp [sends, List.countP_append, List.countP_cons]

theorem NothingSent.append {o : ActCall} {answer : o.Answer} (h : NothingSent l) (ho : o.enqueues = false) :
    NothingSent (l ++ [⟨o, answer⟩]) := by
  intro e he
  rcases List.mem_append.1 he with he | he
  · exact h e he
  · rw [List.mem_singleton] at he
    rw [he]
    exact ho

theorem submitRecorded_keeps {creationId : Int} {operation : Operation} (hsent : NothingSent l)
    (h : auctioneer.BeforeSending pool account l (.enqueue ⟨operation, .normal, CREATION_RETRIES⟩)) :
    Keeps (fun _ _ _ => True) (auctioneer.BeforeSending pool account) (fun l _ => sends l ≤ 1) l
      (submitRecorded creationId operation) := by
  refine Keeps.bind_call h fun answer _ => ?_
  have hone : sends (l ++ [⟨.enqueue ⟨operation, .normal, CREATION_RETRIES⟩, answer⟩]) = 1 := by
    rw [sends_append, hsent.sends]
    rfl
  refine Keeps.bind_lift (fun outcome _ => ?_) fun _ _ => hone.le
  refine Keeps.bind_call trivial fun answer' _ => ?_
  have hattached : sends (l ++ [⟨.enqueue ⟨operation, .normal, CREATION_RETRIES⟩, answer⟩] ++
      [⟨.attachCreationTx creationId outcome.hash, answer'⟩]) = 1 := by
    rw [sends_append, hone]
    rfl
  exact Keeps.bind_lift (fun _ _ => hattached.le) fun _ _ => hattached.le

theorem record_keeps {tick : LedgerTick} {submit : Bool} {accepted : Accepted} (hsent : NothingSent l)
    (hsound : auctioneer.Sound pool account l accepted)
    (hsubmit : submit = true → auctioneer.submitter = true ∧ auctioneer.dryRun = false) :
    Keeps (fun _ _ _ => True) (auctioneer.BeforeSending pool account) (fun l _ => sends l ≤ 1) l
      (auctioneer.record pool account tick submit accepted) := by
  refine Keeps.bind_call trivial fun answer _ => ?_
  have hrecorded : NothingSent (l ++ [⟨.recordCreation (auctioneer.creation pool account tick accepted), answer⟩]) :=
    hsent.append rfl
  refine Keeps.bind_lift (fun creationId hcreation => ?_) fun _ _ => hrecorded.sends.le.trans (Nat.zero_le 1)
  have hanswer := mapError_ok_iff.1 hcreation
  cases submit with
  | false => exact hrecorded.sends.le.trans (Nat.zero_le 1)
  | true =>
    obtain ⟨hsigner, harmed⟩ := hsubmit rfl
    have hbefore : auctioneer.BeforeSending pool account
        (l ++ [⟨.recordCreation (auctioneer.creation pool account tick accepted), answer⟩])
        (.enqueue ⟨accepted.operation, .normal, CREATION_RETRIES⟩) := by
      refine ⟨⟨hsigner, harmed⟩, hrecorded, List.mem_append_left _ (hsound.judged hsigner),
        auctioneer.creation pool account tick accepted, creationId, ?_, rfl, rfl, hsound.describes tick⟩
      rw [hanswer]
      exact List.mem_append_right _ (List.mem_singleton_self _)
    refine Keeps.bind (Q := fun l _ => sends l ≤ 1) ?_ (fun _ _ h => h) fun _ _ h => h
    exact (submitRecorded_keeps hrecorded hbefore).bind (fun _ _ h => h) fun _ _ h => h

theorem beforeSending_of_not {o : ActCall} (h : o.enqueues = false) : auctioneer.BeforeSending pool account l o := by
  cases o with
  | enqueue submission => cases h
  | simulateOnly operation => trivial
  | recordCreation record => trivial
  | attachCreationTx creationId hash => trivial
  | auctions call => trivial

theorem act_keeps {decision : Decision} {tick : LedgerTick} {submit : Bool} :
    Keeps (fun _ _ _ => True) (auctioneer.BeforeSending pool account) (fun l _ => sends l ≤ 1) []
      (auctioneer.act pool account decision tick submit) := by
  unfold act
  split
  · exact Nat.zero_le 1
  next hsigned =>
  split
  · exact Nat.zero_le 1
  next harmed =>
  have hsubmit : submit = true → auctioneer.submitter = true ∧ auctioneer.dryRun = false := by
    intro heq
    subst heq
    simpa using And.intro hsigned harmed
  have haccept : Keeps (fun _ _ _ => True) (auctioneer.BeforeSending pool account)
      (fun l r => NothingSent l ∧ ∀ accepted, r = .ok (.ok accepted) → auctioneer.Sound pool account l accepted) []
      (auctioneer.accept pool account decision) :=
    (accept_keeps.throughout fun e he => absurd he List.not_mem_nil).mono (fun _ _ h => beforeSending_of_not h.2)
      fun _ _ h => h
  refine haccept.bind (fun l answer h => ?_) fun l _ h => h.1.sends.le.trans (Nat.zero_le 1)
  cases answer with
  | error outcome => exact h.1.sends.le.trans (Nat.zero_le 1)
  | ok accepted => exact record_keeps h.1 (h.2 accepted rfl) hsubmit

/-- With a key, an interval out of the walk's reach is a refusal. -/
theorem act_refuses {a b : Nat} {tick : LedgerTick} {submit : Bool} (hsigner : auctioneer.submitter = true)
    (harmed : submit = true → auctioneer.dryRun = false)
    (harrives : Keeps (auctioneer.Banded pool account plan a b) (fun _ o => o.simulates = true)
      (fun _ r => auctioneer.Arrived pool account plan a b auctioneer.planIterations plan.percent.get r) []
      (auctioneer.acceptPercent pool account plan))
    (hfar : auctioneer.planIterations ≤ distance a b plan.percent.get) :
    Keeps (auctioneer.Banded pool account plan a b) (fun _ o => o.simulates = true) (fun _ r => r = .ok .refused) []
      (auctioneer.act pool account (.liquidate plan) tick submit) := by
  unfold act
  have hsigned : ¬(submit && !auctioneer.submitter) = true := by simp [hsigner]
  have harmed' : ¬(submit && auctioneer.dryRun) = true := by simpa using harmed
  rw [if_neg hsigned, if_neg harmed']
  have hnone : Keeps (auctioneer.Banded pool account plan a b) (fun _ o => o.simulates = true)
      (fun _ r => r = .ok none) [] (auctioneer.acceptPercent pool account plan) :=
    harrives.mono (fun _ _ h => h) fun _ _ h => h.2 hfar
  have haccept : Keeps (auctioneer.Banded pool account plan a b) (fun _ o => o.simulates = true)
      (fun _ r => r = .ok (.error .refused)) [] (auctioneer.accept pool account (.liquidate plan)) := by
    refine hnone.bind (fun l answer hanswer => ?_) nofun
    cases hanswer
    exact rfl
  refine haccept.bind (fun l answer hanswer => ?_) nofun
  cases hanswer
  exact rfl

/-- **Only what was judged is sent, and the walk finds what is in its reach.**
An action hands the queue at most one operation, with a key and armed, once the
contract has accepted that very operation and its row is written; the walk makes
at most its number of simulations, each of the plan at a percent from 1 to 100;
and on an interval of accepted percents it answers with one of them where the
plan's percent is fewer than that many percents away, and otherwise refuses with
nothing recorded. -/
theorem act_sends_what_was_judged (auctioneer : Auctioneer) (pool account : String) :
    (∀ decision tick submit, Keeps (fun _ _ _ => True) (auctioneer.BeforeSending pool account) (fun l _ => sends l ≤ 1) []
      (auctioneer.act pool account decision tick submit)) ∧
    (∀ plan, Keeps (fun _ _ _ => True) (auctioneer.Walking pool account plan)
      (fun l _ => simulations l ≤ auctioneer.planIterations) [] (auctioneer.acceptPercent pool account plan)) ∧
    ∀ plan a b, auctioneer.submitter = true → 1 ≤ a → a ≤ b → b ≤ 100 →
      (∀ percent, ∃ operation, auctioneer.xdr.newAuctionOp pool account plan.bid plan.lot percent = .ok operation) →
      Keeps (auctioneer.Banded pool account plan a b) (fun _ o => o.simulates = true)
        (fun _ r => auctioneer.Arrived pool account plan a b auctioneer.planIterations plan.percent.get r) []
        (auctioneer.acceptPercent pool account plan) ∧
      (auctioneer.planIterations ≤ distance a b plan.percent.get → ∀ tick submit, (submit = true → auctioneer.dryRun = false) →
        Keeps (auctioneer.Banded pool account plan a b) (fun _ o => o.simulates = true) (fun _ r => r = .ok .refused) []
          (auctioneer.act pool account (.liquidate plan) tick submit)) := by
  refine ⟨fun decision tick submit => act_keeps, fun plan => acceptPercent_keeps.mono (fun _ _ h => h) fun _ _ h => h.bounded,
    fun plan a b hsigner ha hab hb hbuilds => ?_⟩
  have harrives : Keeps (auctioneer.Banded pool account plan a b) (fun _ o => o.simulates = true)
      (fun _ r => auctioneer.Arrived pool account plan a b auctioneer.planIterations plan.percent.get r) []
      (auctioneer.acceptPercent pool account plan) := by
    unfold acceptPercent
    rw [if_pos hsigner]
    exact walkPercent_arrives ha hab hb hbuilds
  exact ⟨harrives, fun hfar tick submit harmed => act_refuses hsigner harmed harrives hfar⟩

/-! ### A band to walk to -/

/-- An auctioneer with a key, whose library writes a call as long as its percent. -/
def bandAuctioneer : Auctioneer where
  xdr :=
    { scAddress := .ok
      invokeContract := fun _ _ args => match args.getLast? with
        | some (.u32 percent) => String.ofList (List.replicate percent.toNat 'x')
        | _ => "" }
  submitter := true
  dryRun := false
  planIterations := 6

def bandPlan : LiquidationPlan := ⟨["USDC"], ["XLM"], ⟨50, by decide, by decide⟩⟩

theorem bandAuctioneer_builds (percent : FillPercent) :
    bandAuctioneer.xdr.newAuctionOp "POOL" "BORROWER" bandPlan.bid bandPlan.lot percent =
      .ok (.invokeHostFunction (String.ofList (List.replicate percent.get 'x')) []) := by
  have hpercent : (UInt32.ofNat percent.get).toNat = percent.get := by
    have hle := percent.le_hundred
    rw [UInt32.toNat_ofNat']
    exact Nat.mod_eq_of_lt (by omega)
  show Except.ok (Operation.invokeHostFunction
    (String.ofList (List.replicate (UInt32.ofNat percent.get).toNat 'x')) []) = _
  rw [hpercent]

/-- A contract that accepts the calls of `low` to `high` percent. -/
def bandContract (low high : Nat) : (o : ActCall) → o.Answer
  | .simulateOnly operation =>
    let percent := match operation with
      | .invokeHostFunction function _ => function.length
      | _ => 0
    if percent < low then .ok (.refused (some INVALID_LIQ_TOO_SMALL) "too small")
    else if high < percent then .ok (.refused (some INVALID_LIQ_TOO_LARGE) "too large")
    else .ok .accepted
  | .recordCreation _ => .ok 1
  | .enqueue _ => .error .closed
  | .attachCreationTx _ _ => .ok true
  | .auctions (.auction _ _ _) => .ok none
  | .auctions (.upsert _) => .ok ()
  | .auctions (.delete _ _ _) => .ok ()

theorem bandContract_banded {low high : Nat} (h : low ≤ high) (l : List (Entry ActCall.Answer)) (o : ActCall) :
    bandAuctioneer.Banded "POOL" "BORROWER" bandPlan low high l o (bandContract low high o) := by
  cases o with
  | simulateOnly operation =>
    intro percent hbuilt
    rw [bandAuctioneer_builds] at hbuilt
    cases hbuilt
    simp only [bandContract, String.length_ofList, List.length_replicate]
    refine ⟨fun hlow => ⟨"too small", if_pos hlow⟩, fun hhigh => ⟨"too large", ?_⟩, fun hlow hhigh => ?_⟩
    · rw [if_neg (by omega), if_pos hhigh]
    · rw [if_neg (by omega), if_neg (by omega)]
  | _ => trivial

/-- Five percents above the band, the walk comes to it with six attempts; thirty
above another, it does not, and nothing is recorded. -/
theorem act_sends_what_was_judged_band :
    (∀ l o, bandAuctioneer.Banded "POOL" "BORROWER" bandPlan 40 45 l o (bandContract 40 45 o)) ∧
    (∀ l o, bandAuctioneer.Banded "POOL" "BORROWER" bandPlan 10 20 l o (bandContract 10 20 o)) ∧
    Keeps (bandAuctioneer.Banded "POOL" "BORROWER" bandPlan 40 45) (fun _ o => o.simulates = true)
      (fun _ r => ∃ (percent : FillPercent) (operation : Operation), r = .ok (some (percent, operation, true)) ∧
        40 ≤ percent.get ∧ percent.get ≤ 45) [] (bandAuctioneer.acceptPercent "POOL" "BORROWER" bandPlan) ∧
    Keeps (bandAuctioneer.Banded "POOL" "BORROWER" bandPlan 10 20) (fun _ o => o.simulates = true)
      (fun _ r => r = .ok .refused) [] (bandAuctioneer.act "POOL" "BORROWER" (.liquidate bandPlan) ⟨1300, 0⟩ true) := by
  obtain ⟨-, -, hband⟩ := act_sends_what_was_judged bandAuctioneer "POOL" "BORROWER"
  have hbuilds : ∀ percent, ∃ operation,
      bandAuctioneer.xdr.newAuctionOp "POOL" "BORROWER" bandPlan.bid bandPlan.lot percent = .ok operation :=
    fun percent => ⟨_, bandAuctioneer_builds percent⟩
  refine ⟨bandContract_banded (by decide), bandContract_banded (by decide), ?_, ?_⟩
  · refine (hband bandPlan 40 45 rfl (by decide) (by decide) (by decide) hbuilds).1.mono (fun _ _ h => h) ?_
    rintro l r ⟨hnear, -⟩
    obtain ⟨percent, operation, hr, hinside, -⟩ := hnear (by decide)
    exact ⟨percent, operation, hr, hinside⟩
  · exact (hband bandPlan 10 20 rfl (by decide) (by decide) (by decide) hbuilds).2 (by decide) ⟨1300, 0⟩ true fun _ => rfl

end Auctioneer

end BlendLiquidator
