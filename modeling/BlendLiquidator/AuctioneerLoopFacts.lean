/-
What the auctioneer's task sends, over a whole run.

Whatever the chain, the store and the queue answer, an operation is handed to
the queue only in the tick it was decided in, and it is the operation of that
decision: `carryOut_keeps` follows a turn's calls into the programs that carry
them out, and `loop_keeps` takes what each pool's turn keeps to the run.
-/
import BlendLiquidator.AuctioneerFacts
import BlendLiquidator.AuctioneerLoop
import BlendLiquidator.DecideFacts

namespace BlendLiquidator

open Calls Results

/-! ## The operation of a decision -/

/-- What a decision calls for: nothing, `bad_debt` of the borrower, or the
plan's auction at some percent. -/
def Decision.Orders (decision : Decision) (xdr : XdrLibrary) (pool account : String) (operation : Operation) : Prop :=
  match decision with
  | .skip _ => False
  | .badDebt => xdr.badDebtOp pool account = .ok operation
  | .liquidate plan => ∃ percent, xdr.newAuctionOp pool account plan.bid plan.lot percent = .ok operation

namespace Auctioneer

variable {auctioneer : Auctioneer} {pool account : String} {l : List (Entry ActCall.Answer)} {decision : Decision}
  {tick : LedgerTick} {submit : Bool}

/-- What is handed to the queue is what the decision calls for, and there is a
queue. -/
def OrderedBy (auctioneer : Auctioneer) (pool account : String) (decision : Decision) (submit : Bool) : ActCall → Prop
  | .enqueue submission => submit = true ∧ decision.Orders auctioneer.xdr pool account submission.operation
  | _ => True

theorem orderedBy_of_not {o : ActCall} (h : o.enqueues = false) : auctioneer.OrderedBy pool account decision submit o := by
  cases o with
  | enqueue submission => cases h
  | simulateOnly operation => trivial
  | recordCreation record => trivial
  | attachCreationTx creationId hash => trivial
  | auctions call => trivial

theorem accept_orders :
    Keeps (fun _ _ _ => True) (fun _ => auctioneer.OrderedBy pool account decision submit)
      (fun _ r => ∀ accepted, r = .ok (.ok accepted) → decision.Orders auctioneer.xdr pool account accepted.operation) []
      (auctioneer.accept pool account decision) := by
  cases decision with
  | skip reason => exact fun _ hskipped => by cases hskipped
  | badDebt =>
    refine Keeps.bind_lift (fun operation hbuilt => ?_) fun _ _ _ hfailed => by cases hfailed
    refine (acceptBadDebt_keeps.mono (fun _ _ => orderedBy_of_not) fun _ _ h => h).bind (fun l answer _ => ?_)
      fun _ _ _ _ hfailed => by cases hfailed
    cases answer with
    | none => exact fun _ hrefused => by cases hrefused
    | some simulated =>
      intro accepted haccepted
      cases haccepted
      exact mapError_ok_iff.1 hbuilt
  | liquidate plan =>
    refine (acceptPercent_keeps.mono (fun _ _ h => orderedBy_of_not h.not_enqueues) fun _ _ h => h).bind
      (fun l answer hwalked => ?_) fun _ _ _ _ hfailed => by cases hfailed
    cases answer with
    | none => exact fun _ hrefused => by cases hrefused
    | some answer =>
      obtain ⟨percent, operation, simulated⟩ := answer
      intro accepted haccepted
      cases haccepted
      exact ⟨percent, (hwalked.judged percent operation simulated rfl).1⟩

theorem record_orders {accepted : Accepted} (h : decision.Orders auctioneer.xdr pool account accepted.operation) :
    Keeps (fun _ _ _ => True) (fun _ => auctioneer.OrderedBy pool account decision submit) (fun _ _ => True) l
      (auctioneer.record pool account tick submit accepted) := by
  refine Keeps.bind_call trivial fun answer _ => ?_
  refine Keeps.bind_lift (fun creationId _ => ?_) fun _ _ => trivial
  cases submit with
  | false => trivial
  | true =>
    refine Keeps.bind (Q := fun _ _ => True) ?_ (fun _ _ _ => trivial) fun _ _ _ => trivial
    refine Keeps.bind (Q := fun _ _ => True) ?_ (fun _ _ _ => trivial) fun _ _ _ => trivial
    refine Keeps.bind_call ⟨rfl, h⟩ fun answer _ => ?_
    refine Keeps.bind_lift (fun outcome _ => ?_) fun _ _ => trivial
    refine Keeps.bind_call trivial fun answer _ => ?_
    exact Keeps.bind_lift (fun _ _ => trivial) fun _ _ => trivial

theorem act_orders :
    Keeps (fun _ _ _ => True) (fun _ => auctioneer.OrderedBy pool account decision submit) (fun _ _ => True) []
      (auctioneer.act pool account decision tick submit) := by
  unfold act
  split
  · trivial
  split
  · trivial
  refine accept_orders.bind (fun l answer h => ?_) fun _ _ _ => trivial
  cases answer with
  | error outcome => trivial
  | ok accepted => exact record_orders (h accepted rfl)

end Auctioneer

/-! ## The record of a tick -/

def TaskCall.borrows : TaskCall → Bool
  | .borrow => true
  | _ => false

/-- The ticks the task has taken. -/
def ticksOf (l : List (Entry TaskCall.Answer)) : List LedgerTick :=
  l.filterMap fun e => match e with
    | ⟨.borrow, tick⟩ => some tick
    | _ => none

/-- The record somewhere in a tick: what was before it, and its own calls. -/
structure During (before : List (Entry TaskCall.Answer)) (tick : LedgerTick) (since l : List (Entry TaskCall.Answer)) :
    Prop where
  split : l = before ++ ⟨.borrow, tick⟩ :: since
  own : ∀ e ∈ since, e.1.borrows = false

section During

variable {before since l : List (Entry TaskCall.Answer)} {tick : LedgerTick}

theorem During.append (h : During before tick since l) {more : List (Entry TaskCall.Answer)}
    (hmore : ∀ e ∈ more, e.1.borrows = false) : During before tick (since ++ more) (l ++ more) where
  split := by rw [h.split, List.append_assoc, List.cons_append]
  own e he := by
    rcases List.mem_append.1 he with he | he
    · exact h.own e he
    · exact hmore e he

theorem During.call (h : During before tick since l) {o : TaskCall} {a : o.Answer} (ho : o.borrows = false) :
    During before tick (since ++ [⟨o, a⟩]) (l ++ [⟨o, a⟩]) :=
  h.append fun e he => by rw [List.mem_singleton.1 he]; exact ho

end During

namespace AuctioneerTask

variable {task : AuctioneerTask} {before since since' l l' : List (Entry TaskCall.Answer)} {tick : LedgerTick}
  {pool account : String} {decision : Decision} {submit : Bool}

/-- What a decision to act rests on, read in its tick: a snapshot of the
borrower, who is none of the bot's own, no auction row of it, and what the
snapshot says of it. -/
def Decided (task : AuctioneerTask) (tick : LedgerTick) (since : List (Entry TaskCall.Answer)) (pool account : String)
    (decision : Decision) : Prop :=
  task.config.isOwnAccount pool account = false ∧ ∃ accounts snapshot reserves, account ∈ accounts ∧
    (⟨.reading (.snapshot pool accounts), .ok snapshot⟩ : Entry TaskCall.Answer) ∈ since ∧
    (⟨.reading (AuctioneerConfig.rowOf pool account), .ok none⟩ : Entry TaskCall.Answer) ∈ since ∧
    snapshot.accruedReserves (snapshot.valuedAt tick.closeTime) = .ok reserves ∧
    task.config.judge snapshot reserves (snapshot.valuedAt tick.closeTime) account = .ok decision

theorem Decided.mono (h : task.Decided tick since pool account decision) (hsince : since ⊆ since') :
    task.Decided tick since' pool account decision := by
  obtain ⟨hown, accounts, snapshot, reserves, hmem, hsnapshot, hrow, hreserves, hjudge⟩ := h
  exact ⟨hown, accounts, snapshot, reserves, hmem, hsince hsnapshot, hsince hrow, hreserves, hjudge⟩

/-- The startup delay is over: two ticks are that far apart. -/
def Waited (task : AuctioneerTask) (l : List (Entry TaskCall.Answer)) : Prop :=
  ∃ first later, (ticksOf l).head? = some first ∧ later ∈ ticksOf l ∧
    task.cadence.startupDelayLedgers ≤ later.sequence - first.sequence

/-- The task may submit. -/
structure Armed (task : AuctioneerTask) (l : List (Entry TaskCall.Answer)) : Prop where
  queue : task.submissionQueue = true
  signer : task.auctioneer.submitter = true
  live : task.auctioneer.dryRun = false
  waited : task.Waited l

/-- What is on record when an operation is handed to the queue: all of it but
the wait is of the same tick. -/
def Grounded (task : AuctioneerTask) (l : List (Entry TaskCall.Answer)) : TaskCall → Prop
  | .acting (.enqueue submission) => task.Armed l ∧ ∃ before tick since pool account decision,
    During before tick since l ∧ pool ∈ task.pools ∧ task.Decided tick since pool account decision ∧
    decision.Orders task.auctioneer.xdr pool account submission.operation ∧
    (⟨.acting (.simulateOnly submission.operation), .ok .accepted⟩ : Entry TaskCall.Answer) ∈ since ∧
    ∃ record creationId, (⟨.acting (.recordCreation record), .ok creationId⟩ : Entry TaskCall.Answer) ∈ since ∧
      record.pool = pool ∧ record.account = account ∧
      record.Describes task.auctioneer.xdr submission.operation
  | _ => True

/-- Where a tick's queue comes from. -/
def MaySubmit (task : AuctioneerTask) (submit : Bool) (l : List (Entry TaskCall.Answer)) : Prop :=
  submit = true → task.submissionQueue = true ∧ task.Waited l

theorem ticksOf_append : ticksOf (l ++ l') = ticksOf l ++ ticksOf l' := List.filterMap_append

theorem Waited.append (h : task.Waited l) : task.Waited (l ++ l') := by
  obtain ⟨first, later, hfirst, hlater, hdelay⟩ := h
  refine ⟨first, later, ?_, ?_, hdelay⟩
  · rw [ticksOf_append, List.head?_append, hfirst]
    rfl
  · rw [ticksOf_append]
    exact List.mem_append_left _ hlater

/-! ## A turn's calls, carried out -/

/-- The calls of an action, on the task's record. -/
def acts (l : List (Entry ActCall.Answer)) : List (Entry TaskCall.Answer) := l.map fun e => ⟨.acting e.1, e.2⟩

theorem acts_append {l l' : List (Entry ActCall.Answer)} : acts (l ++ l') = acts l ++ acts l' := List.map_append

theorem mem_acts {e : Entry ActCall.Answer} {l : List (Entry ActCall.Answer)} (h : e ∈ l) :
    (⟨.acting e.1, e.2⟩ : Entry TaskCall.Answer) ∈ acts l := List.mem_map_of_mem h

theorem acts_borrows {l : List (Entry ActCall.Answer)} : ∀ e ∈ acts l, e.1.borrows = false := by
  intro e he
  obtain ⟨e, -, rfl⟩ := List.mem_map.1 he
  rfl

/-- What the record is within a tick, after a part of a turn. -/
def Further (before : List (Entry TaskCall.Answer)) (tick : LedgerTick) (since l : List (Entry TaskCall.Answer)) : Prop :=
  ∃ since', since ⊆ since' ∧ During before tick since' l

theorem Further.call (h : Further before tick since l) {o : TaskCall} {a : o.Answer} (ho : o.borrows = false) :
    Further before tick since (l ++ [⟨o, a⟩]) := by
  obtain ⟨since', hsince, hduring⟩ := h
  exact ⟨_, List.Subset.trans hsince (List.subset_append_left _ _), hduring.call ho⟩

theorem noteAct_keeps {acted : Except AuctioneerError ActOutcome} (h : Further before tick since l) :
    Keeps (fun _ _ _ => True) task.Grounded (fun l _ => Further before tick since l) l (task.noteAct pool account acted) := by
  have hone : ∀ l attempt, Further before tick since l →
      Keeps (fun _ _ _ => True) task.Grounded (fun l _ => Further before tick since l) l
        (Proc.call (TaskCall.creation attempt) : Tasking Unit) :=
    fun l attempt h => ⟨trivial, fun _ _ => h.call rfl⟩
  cases acted with
  | ok outcome =>
    cases outcome with
    | skipped reason => exact h
    | refused => exact h
    | recorded outcome =>
      refine (hone l _ h).bind (fun l _ h => ?_) fun _ _ h => h
      split
      · exact (hone l _ h).bind (fun l _ h => ⟨trivial, fun _ _ => h.call rfl⟩) fun _ _ h => h
      · exact hone l _ h
      · exact hone l _ h
      · exact h
      · exact h
  | error error =>
    unfold noteAct
    split
    · next heq => cases heq
    · refine (hone l _ h).bind (fun l _ h => ?_) fun _ _ h => h
      exact (hone l _ h).bind (fun l _ h => ⟨trivial, fun _ _ => h.call rfl⟩) fun _ _ h => h
    · exact h
    · exact h
    · exact h

/-- Acting on a decision of this tick. -/
theorem act_keeps (hduring : During before tick since l) (hsubmit : task.MaySubmit submit l) (hpool : pool ∈ task.pools)
    (hdecided : (∀ reason, decision ≠ .skip reason) → task.Decided tick since pool account decision) :
    Keeps (fun _ _ _ => True) task.Grounded (fun l _ => Further before tick since l) l
      (task.act submit pool account decision tick) := by
  have hact : Keeps (fun _ _ _ => True)
      (fun l o => task.auctioneer.BeforeSending pool account l o ∧ task.auctioneer.OrderedBy pool account decision submit o)
      (fun _ _ => True) [] (task.auctioneer.act pool account decision tick submit) :=
    (Auctioneer.act_keeps.and Auctioneer.act_orders).mono (fun _ _ h => h) fun _ _ _ => trivial
  refine Keeps.bind (Keeps.part (l := []) (R := fun inner l' => l' = l ++ acts inner) ?_ hact (List.append_nil l).symm)
    (fun l' answer h => ?_) fun l' error h => ?_
  · rintro inner _ o rfl ⟨hbefore, horders⟩
    refine ⟨?_, fun a _ => ⟨trivial, ?_⟩⟩
    · cases o with
      | enqueue submission =>
        obtain ⟨⟨hsigner, hlive⟩, -, hjudged, record, creationId, hrecord, hof, hfor, hdescribes⟩ := hbefore
        obtain ⟨hsubmits, horders⟩ := horders
        obtain ⟨hqueue, hwaited⟩ := hsubmit hsubmits
        refine ⟨⟨hqueue, hsigner, hlive, hwaited.append⟩, before, tick, since ++ acts inner, pool, account, decision,
          hduring.append acts_borrows, hpool, (hdecided ?_).mono (List.subset_append_left _ _), horders,
          List.mem_append_right _ (mem_acts hjudged), record, creationId, List.mem_append_right _ (mem_acts hrecord), hof,
          hfor, hdescribes⟩
        rintro reason rfl
        exact horders
      | simulateOnly operation => trivial
      | recordCreation record => trivial
      | attachCreationTx creationId hash => trivial
      | auctions call => trivial
    · rw [acts_append, ← List.append_assoc]
      rfl
  · obtain ⟨inner, _, -, rfl, -⟩ := h
    have hnoted := @noteAct_keeps task before since (l ++ acts inner) tick pool account answer
      ⟨since ++ acts inner, List.subset_append_left _ _, hduring.append acts_borrows⟩
    exact hnoted.bind (fun _ _ h => h) fun _ _ h => h
  · obtain ⟨inner, _, heq, -⟩ := h
    cases heq

/-- The reads of a decision, on the task's record. -/
def readings (l : List (Entry DecideCall.Answer)) : List (Entry TaskCall.Answer) := l.map fun e => ⟨.reading e.1, e.2⟩

theorem readings_append {l l' : List (Entry DecideCall.Answer)} : readings (l ++ l') = readings l ++ readings l' :=
  List.map_append

theorem mem_readings {e : Entry DecideCall.Answer} {l : List (Entry DecideCall.Answer)} (h : e ∈ l) :
    (⟨.reading e.1, e.2⟩ : Entry TaskCall.Answer) ∈ readings l := List.mem_map_of_mem h

theorem readings_borrows {l : List (Entry DecideCall.Answer)} : ∀ e ∈ readings l, e.1.borrows = false := by
  intro e he
  obtain ⟨e, -, rfl⟩ := List.mem_map.1 he
  rfl

theorem decided_mem {decisions : List (String × Decision)} (h : decided decisions account = some decision) :
    (account, decision) ∈ decisions := by
  obtain ⟨found, hfound, rfl⟩ := Option.map_eq_some_iff.1 h
  have hname : found.1 = account := by simpa using List.find?_some hfound
  subst hname
  exact List.mem_of_find?_eq_some hfound

/-- Each decision to act among `decided` is one of this tick's. -/
def AllDecided (task : AuctioneerTask) (tick : LedgerTick) (pool : String) (since : List (Entry TaskCall.Answer))
    (decided : String → Option Decision) : Prop :=
  ∀ account decision, decided account = some decision → (∀ reason, decision ≠ .skip reason) →
    task.Decided tick since pool account decision

theorem allDecided_of_ended {accounts : List String} {reads : List (Entry DecideCall.Answer)}
    {decisions : List (String × Decision)} (h : task.config.Ended pool accounts tick reads (.ok decisions)) :
    task.AllDecided tick pool (readings reads) (decided decisions) := by
  intro account decision hdecided hactive
  have hmem := decided_mem hdecided
  obtain ⟨-, ⟨-, rfl⟩ | ⟨snapshot, reserves, hsnapshot, hreserves, hfilled⟩⟩ := h
  · obtain ⟨_, -, heq⟩ := List.mem_map.1 hmem
    cases heq
    exact absurd rfl (hactive _)
  rcases hfilled.grounds account decision hmem with ⟨-, rfl⟩ | ⟨hown, ⟨row, -, rfl⟩ | ⟨hrow, hjudge⟩⟩
  · exact absurd rfl (hactive _)
  · exact absurd rfl (hactive _)
  · refine ⟨hown, task.config.pending pool accounts, snapshot, reserves, ?_, mem_readings hsnapshot, mem_readings hrow,
      hreserves, hjudge⟩
    have haccount : account ∈ accounts := hfilled.inOrder.subset (List.mem_map_of_mem hmem)
    simp [AuctioneerConfig.pending, haccount, hown]

/-- Deciding a batch in this tick. -/
theorem decide_keeps {batch : List TrackedUser} (hduring : During before tick since l) :
    Keeps (fun _ _ _ => True) task.Grounded (fun l r => ∃ since', since ⊆ since' ∧ During before tick since' l ∧
      ∀ decided, r = .ok (.ok decided) → task.AllDecided tick pool since' decided) l (task.decide pool batch tick) := by
  refine Keeps.bind (Keeps.part (l := []) (R := fun inner l' => l' = l ++ readings inner) ?_
    (task.config.decide_keeps pool (batch.map (·.account)) tick) (List.append_nil l).symm) (fun l' answer h => ?_)
    fun l' error h => ?_
  · rintro inner _ o rfl -
    refine ⟨trivial, fun a _ => ⟨trivial, ?_⟩⟩
    rw [readings_append, ← List.append_assoc]
    rfl
  · obtain ⟨inner, _, heq, rfl, hended⟩ := h
    cases heq
    refine ⟨since ++ readings inner, List.subset_append_left _ _, hduring.append readings_borrows, ?_⟩
    intro found hfound account decision hmem hactive
    cases answer with
    | error error => cases hfound
    | ok decisions =>
      cases hfound
      exact (allDecided_of_ended hended account decision hmem hactive).mono (List.subset_append_right _ _)
  · obtain ⟨inner, _, heq, -⟩ := h
    cases heq

end AuctioneerTask

/-! ## What a turn asks for -/

section Asks

variable {pool : String} {tick : LedgerTick} {l : List (Entry RecheckCall.Answer)}

/-- A turn decides batches of its own pool at its own tick, and acts only on
what one of them was decided as. -/
def Asks (pool : String) (tick : LedgerTick) (l : List (Entry RecheckCall.Answer)) : RecheckCall → Prop
  | .decide pool' _ tick' => pool' = pool ∧ tick' = tick
  | .act pool' account decision tick' => pool' = pool ∧ tick' = tick ∧ ∃ batch decided,
    (⟨.decide pool batch tick, .ok decided⟩ : Entry RecheckCall.Answer) ∈ l ∧ decided account = some decision
  | _ => True

/-- The calls only an oracle scan makes, and the read of a batch. -/
def RecheckCall.leads : RecheckCall → Bool
  | .moves _ _ | .write (.flagExposed _ _ _ _) | .needing _ _ => true
  | _ => false

section Writes

variable {P : List (Entry RecheckCall.Answer) → RecheckCall → Prop}

theorem write_keeps {statement : UserStatement} (h : P l (.write statement)) :
    Keeps (fun _ _ _ => True) P (fun l' _ => l <+: l') l (write statement) :=
  Keeps.bind_call h fun answer _ => by cases answer <;> exact List.prefix_append _ _

/-- Writes, one after the other. -/
theorem writes_keep {γ : Type} {statement : γ → UserStatement} {xs : List γ} (h : ∀ l x, P l (.write (statement x))) :
    Keeps (fun _ _ _ => True) P (fun l' _ => l <+: l') l (xs.forM fun x => write (statement x)) := by
  refine (Keeps.forM (I := fun _ l' => l <+: l') (E := fun l' _ => l <+: l') (fun x rest l' hl => ?_)
    List.prefix_rfl).mono (fun _ _ h => h) fun _ r h => by cases r <;> exact h
  exact (write_keeps (h l' x)).mono (fun _ _ h => h) fun _ r h => by cases r <;> exact hl.trans h

end Writes

theorem Turn.oracle_asks {turn : Turn} :
    Keeps (fun _ _ _ => True) (Asks turn.pool turn.tick) (fun _ _ => True) l turn.oracle := by
  unfold Turn.oracle
  split
  · refine Keeps.bind_call trivial fun answer _ => ?_
    cases answer with
    | ok moves => exact (writes_keep fun _ _ => trivial).mono (fun _ _ h => h) fun _ _ _ => trivial
    | error error => cases error <;> trivial
  · trivial

/-- What the rest of a turn asks for. -/
def AsksBeside (pool : String) (tick : LedgerTick) (l : List (Entry RecheckCall.Answer)) (o : RecheckCall) : Prop :=
  Asks pool tick l o ∧ o.leads = false

theorem scanPages_asks {threshold : Int} {ledger limit fuel flagged : Nat} {after : Option (Int ×ₗ String)} :
    Keeps (fun _ _ _ => True) (AsksBeside pool tick) (fun _ _ => True) l
      (scanPages pool threshold ledger limit fuel after flagged) := by
  induction fuel generalizing l after flagged with
  | zero => trivial
  | succ fuel ih =>
    refine Keeps.bind_call ⟨trivial, rfl⟩ fun stopping _ => ?_
    cases stopping with
    | true => trivial
    | false =>
      refine Keeps.bind_call ⟨trivial, rfl⟩ fun answer _ => ?_
      refine Keeps.bind_lift (fun page _ => ?_) fun _ _ => trivial
      cases hlast : page.getLast? with
      | none => trivial
      | some last => exact (writes_keep fun _ _ => ⟨trivial, rfl⟩).bind (fun _ _ _ => ih) fun _ _ _ => trivial

theorem Turn.scan_asks {turn : Turn} :
    Keeps (fun _ _ _ => True) (AsksBeside turn.pool turn.tick) (fun _ _ => True) l turn.scan := by
  unfold Turn.scan
  split
  · exact scanPages_asks.bind (fun _ _ _ => trivial) fun _ _ _ => trivial
  · trivial

theorem moveFlagForward_asks {account : String} {flaggedAt : Option Nat} :
    Keeps (fun _ _ _ => True) (AsksBeside pool tick) (fun l' _ => l <+: l') l
      (moveFlagForward pool account flaggedAt tick) :=
  write_keeps ⟨trivial, rfl⟩

theorem settleFlag_asks {account : String} {flaggedAt : Option Nat} {acted : Except AuctioneerError ActOutcome} :
    Keeps (fun _ _ _ => True) (AsksBeside pool tick) (fun l' _ => l <+: l') l
      (settleFlag pool account flaggedAt tick acted) := by
  cases acted with
  | ok outcome =>
    unfold settleFlag
    dsimp only
    split
    · split
      · exact write_keeps ⟨trivial, rfl⟩
      · exact List.prefix_rfl
    · exact moveFlagForward_asks
  | error error => cases error <;> first | exact List.prefix_rfl | exact moveFlagForward_asks

theorem actOn_asks {flaggedAt : String → Option Nat} {batch : List TrackedUser} {decided : String → Option Decision}
    {decisions : List (String × Decision)} (hof : ∀ d ∈ decisions, decided d.1 = some d.2)
    (hdecide : (⟨.decide pool batch tick, .ok decided⟩ : Entry RecheckCall.Answer) ∈ l) :
    Keeps (fun _ _ _ => True) (AsksBeside pool tick) (fun _ _ => True) l (actOn pool flaggedAt tick decisions) := by
  induction decisions generalizing l with
  | nil => trivial
  | cons head rest ih =>
    obtain ⟨account, decision⟩ := head
    refine Keeps.bind_call ⟨trivial, rfl⟩ fun stopping _ => ?_
    cases stopping with
    | true => trivial
    | false =>
      have hfirst := List.mem_append_left [(⟨.stopping, false⟩ : Entry RecheckCall.Answer)] hdecide
      refine Keeps.bind_call ⟨⟨rfl, rfl, batch, decided, hfirst, hof _ List.mem_cons_self⟩, rfl⟩ fun acted _ => ?_
      refine settleFlag_asks.bind (fun l' _ hl => ?_) fun _ _ _ => trivial
      exact ih (fun d hd => hof d (List.mem_cons_of_mem _ hd)) (hl.subset (List.mem_append_left _ hfirst))

theorem recheckBatch_asks {batch : List TrackedUser} :
    Keeps (fun _ _ _ => True) (AsksBeside pool tick) (fun _ _ => True) l (recheckBatch pool batch tick) := by
  unfold recheckBatch
  split
  · trivial
  refine Keeps.bind_call ⟨⟨rfl, rfl⟩, rfl⟩ fun answer _ => ?_
  cases answer with
  | error error => cases error <;> trivial
  | ok decided =>
    refine (writes_keep fun _ _ => ⟨trivial, rfl⟩).bind (fun l' _ hl => ?_) fun _ _ _ => trivial
    refine actOn_asks (fun d hd => ?_) (hl.subset (List.mem_append_right _ (List.mem_singleton_self _)))
    obtain ⟨user, -, huser⟩ := List.mem_filterMap.1 hd
    obtain ⟨decision, hdecision, rfl⟩ := Option.map_eq_some_iff.1 huser
    exact hdecision

end Asks

namespace AuctioneerTask

variable {task : AuctioneerTask} {before since l : List (Entry TaskCall.Answer)} {tick : LedgerTick} {pool : String}
  {submit : Bool} {state : AuctioneerState}

/-- How a turn's record stands to the task's: what it has decided is of this
tick. -/
def Carries (task : AuctioneerTask) (before : List (Entry TaskCall.Answer)) (tick : LedgerTick)
    (since : List (Entry TaskCall.Answer)) (pool : String) (gate : StartupGate) (asked : List (Entry RecheckCall.Answer))
    (state : AuctioneerState) (l : List (Entry TaskCall.Answer)) : Prop :=
  state.gate = gate ∧ ∃ since', since ⊆ since' ∧ During before tick since' l ∧
    ∀ batch decided, (⟨.decide pool batch tick, .ok decided⟩ : Entry RecheckCall.Answer) ∈ asked →
      task.AllDecided tick pool since' decided

theorem AllDecided.mono {decided : String → Option Decision} {since' : List (Entry TaskCall.Answer)}
    (h : task.AllDecided tick pool since decided) (hsince : since ⊆ since') : task.AllDecided tick pool since' decided :=
  fun account decision hdecided hactive => (h account decision hdecided hactive).mono hsince

/-- A call that decides nothing. -/
theorem Carries.add {gate : StartupGate} {asked : List (Entry RecheckCall.Answer)} {state' : AuctioneerState}
    {l' more : List (Entry TaskCall.Answer)} (h : task.Carries before tick since pool gate asked state l)
    (hgate : state'.gate = state.gate) (hl : l' = l ++ more) (hmore : ∀ e ∈ more, e.1.borrows = false)
    {e : Entry RecheckCall.Answer} (he : ∀ batch decided, e ≠ ⟨.decide pool batch tick, .ok decided⟩) :
    task.Carries before tick since pool gate (asked ++ [e]) state' l' := by
  obtain ⟨hstate, since', hsince, hduring, hall⟩ := h
  subst hl
  refine ⟨hgate.trans hstate, since' ++ more, List.Subset.trans hsince (List.subset_append_left _ _), hduring.append hmore,
    fun batch decided hmem => ?_⟩
  rcases List.mem_append.1 hmem with hmem | hmem
  · exact (hall batch decided hmem).mono (List.subset_append_left _ _)
  · exact absurd (List.mem_singleton.1 hmem).symm (he batch decided)

theorem moves_keeps {asked : List (Entry RecheckCall.Answer)} {gate : StartupGate}
    (h : task.Carries before tick since pool gate asked state l) {pool' : String} {tick' : LedgerTick} :
    Keeps (fun _ _ _ => True) task.Grounded (fun l' r => ∀ a state', r = .ok (a, state') →
      task.Carries before tick since pool gate (asked ++ [⟨.moves pool' tick', a⟩]) state' l') l
      (task.moves pool' tick' state) := by
  have hadd : ∀ answer a (state' : AuctioneerState), state'.gate = state.gate →
      task.Carries before tick since pool gate (asked ++ [⟨.moves pool' tick', a⟩]) state'
        (l ++ [⟨.reading (.snapshot pool' []), answer⟩]) := fun answer a state' hgate =>
    h.add hgate rfl (fun e he => by rw [List.mem_singleton.1 he]; rfl) fun batch decided heq => by cases heq
  have hscanned : ∀ state' : AuctioneerState, (scanned pool' tick' state').gate = state'.gate := fun _ => rfl
  refine Keeps.bind_call trivial fun answer _ => ?_
  cases answer with
  | ok snapshot =>
    rintro a state' heq
    cases heq
    exact hadd _ _ _ rfl
  | error error =>
    dsimp only
    split
    · next heq => cases heq
    · rintro a state' heq
      cases heq
      refine hadd _ _ _ ?_
      unfold ledgerMoved
      split <;> rfl
    · rintro a state' heq
      cases heq
      exact hadd _ _ _ rfl

/-- A turn's call, carried out. -/
theorem carryOut_keeps {gate : StartupGate} (hsubmit : ∀ l, task.MaySubmit submit (before ++ ⟨.borrow, tick⟩ :: l))
    (hpool : pool ∈ task.pools) {asked : List (Entry RecheckCall.Answer)}
    (h : task.Carries before tick since pool gate asked state l) {o : RecheckCall} (hasks : Asks pool tick asked o) :
    Keeps (fun _ _ _ => True) task.Grounded (fun l' r => ∀ a state', r = .ok (a, state') →
      task.Carries before tick since pool gate (asked ++ [⟨o, a⟩]) state' l') l (task.carryOut submit state o) := by
  have hquiet : ∀ (call : TaskCall) (answer : call.Answer), call.borrows = false → ∀ (o : RecheckCall) (a : o.Answer),
      (∀ batch decided, (⟨o, a⟩ : Entry RecheckCall.Answer) ≠ ⟨.decide pool batch tick, .ok decided⟩) →
      ∀ a' state', (.ok (a, state) : Except StoreError (o.Answer × AuctioneerState)) = .ok (a', state') →
        task.Carries before tick since pool gate (asked ++ [⟨o, a'⟩]) state' (l ++ [⟨call, answer⟩]) := by
    intro call answer hcall o a he a' state' heq
    cases heq
    exact h.add rfl rfl (fun e he => by rw [List.mem_singleton.1 he]; exact hcall) he
  cases o with
  | write statement =>
    exact Keeps.bind_call trivial fun a _ => hquiet (.write statement) a rfl (.write statement) a fun _ _ heq => by cases heq
  | needing pool' limit =>
    exact Keeps.bind_call trivial fun a _ =>
      hquiet (.needing pool' limit) a rfl (.needing pool' limit) a fun _ _ heq => by cases heq
  | below pool' threshold limit after =>
    exact Keeps.bind_call trivial fun a _ =>
      hquiet (.below pool' threshold limit after) a rfl (.below pool' threshold limit after) a fun _ _ heq => by cases heq
  | stopping => exact Keeps.bind_call trivial fun a _ => hquiet .stopping a rfl .stopping a fun _ _ heq => by cases heq
  | moves pool' tick' => exact moves_keeps h
  | decide pool' batch tick' =>
    obtain ⟨rfl, rfl⟩ := hasks
    obtain ⟨hgate, since', hsince, hduring, hall⟩ := h
    refine (decide_keeps hduring).bind (fun l' answer hanswer => ?_) fun _ _ _ _ _ heq => by cases heq
    obtain ⟨since'', hsince', hduring', hdecided⟩ := hanswer
    intro a state' heq
    cases heq
    refine ⟨hgate, since'', List.Subset.trans hsince hsince', hduring', fun batch' decided hmem => ?_⟩
    rcases List.mem_append.1 hmem with hmem | hmem
    · exact (hall batch' decided hmem).mono hsince'
    · cases List.mem_singleton.1 hmem
      exact hdecided decided rfl
  | act pool' account decision tick' =>
    obtain ⟨rfl, rfl, batch, decided, hmem, hdecision⟩ := hasks
    obtain ⟨hgate, since', hsince, hduring, hall⟩ := h
    have hmay : task.MaySubmit submit l := by
      rw [hduring.split]
      exact hsubmit since'
    refine (act_keeps hduring hmay hpool fun hactive => hall batch decided hmem account decision hdecision hactive).bind
      (fun l' answer hanswer => ?_) fun _ _ _ _ _ heq => by cases heq
    obtain ⟨since'', hsince', hduring'⟩ := hanswer
    intro a state' heq
    cases heq
    refine ⟨hgate, since'', List.Subset.trans hsince hsince', hduring', fun batch' decided' hmem' => ?_⟩
    rcases List.mem_append.1 hmem' with hmem' | hmem'
    · exact (hall batch' decided' hmem').mono hsince'
    · cases List.mem_singleton.1 hmem'

/-- Where the task stands within a tick. -/
structure Standing (task : AuctioneerTask) (submit : Bool) (tick : LedgerTick) (gate : StartupGate)
    (before : List (Entry TaskCall.Answer)) (state : AuctioneerState) (l : List (Entry TaskCall.Answer)) : Prop where
  gate : state.gate = gate
  during : ∃ since, During before tick since l
  submits : ∀ since, task.MaySubmit submit (before ++ ⟨.borrow, tick⟩ :: since)

/-- A part of a turn, carried out. -/
theorem part_keeps {gate : StartupGate} {α : Type} {m : Rechecking α} (hpool : pool ∈ task.pools)
    (hm : Keeps (fun _ _ _ => True) (Asks pool tick) (fun _ _ => True) [] m)
    (h : task.Standing submit tick gate before state l) :
    Keeps (fun _ _ _ => True) task.Grounded (fun l' r => ∀ a state', r = .ok (a, state') →
      task.Standing submit tick gate before state' l') l (m.carried (task.carryOut submit) state) := by
  obtain ⟨since, hduring⟩ := h.during
  refine (Keeps.carried (A := fun _ _ _ => True) (R := task.Carries before tick since pool gate) (E := fun _ _ => True)
    (fun asked state' l' o hR hasks => (carryOut_keeps h.submits hpool hR hasks).mono (fun _ _ h => h) fun _ _ h =>
      ⟨fun a s' heq => ⟨trivial, h a s' heq⟩, fun _ _ => trivial⟩) hm
    ⟨h.gate, since, List.Subset.refl _, hduring, fun _ _ hmem => absurd hmem List.not_mem_nil⟩).mono (fun _ _ h => h) ?_
  rintro l' r hr a state' rfl
  obtain ⟨asked, ⟨hgate, since', -, hduring', -⟩, -⟩ := hr.1 a state' rfl
  exact ⟨hgate, ⟨since', hduring'⟩, h.submits⟩

theorem poolTick_keeps {gate : StartupGate} {fuel : Nat} (hpool : pool ∈ task.pools)
    (h : task.Standing submit tick gate before state l) :
    Keeps (fun _ _ _ => True) task.Grounded (fun l' r => ∀ state', r = .ok (some state') →
      task.Standing submit tick gate before state' l') l (task.poolTick submit tick fuel pool state) := by
  let turn := task.turn pool tick state fuel
  refine (part_keeps hpool (@Turn.oracle_asks [] turn) h).bind (fun l answer h => ?_) fun _ _ _ _ heq => by cases heq
  obtain ⟨_, state⟩ := answer
  refine (part_keeps hpool ((@Turn.scan_asks [] turn).mono (fun _ _ h => h.1) fun _ _ h => h) (h _ _ rfl)).bind (fun l answer h => ?_) fun _ _ _ _ heq => by cases heq
  obtain ⟨ended, state⟩ := answer
  cases ended with
  | false => exact fun _ heq => by cases heq
  | true =>
    have hscanned : ∀ scanned : AuctioneerState, scanned.gate = state.gate →
        task.Standing submit tick gate before scanned l := fun scanned heq =>
      ⟨heq.trans (h _ _ rfl).gate, (h _ _ rfl).during, (h _ _ rfl).submits⟩
    refine Keeps.bind_call trivial fun answer _ => ?_
    refine Keeps.bind_lift (fun batch _ => ?_) fun _ _ _ heq => by cases heq
    have hread : ∀ scanned : AuctioneerState, scanned.gate = state.gate →
        task.Standing submit tick gate before scanned (l ++ [⟨.needing pool task.cadence.refreshBatch, answer⟩]) := by
      intro scanned heq
      obtain ⟨hgate, ⟨since, hduring⟩, hsubmits⟩ := hscanned scanned heq
      exact ⟨hgate, ⟨_, hduring.call rfl⟩, hsubmits⟩
    refine (part_keeps hpool (recheckBatch_asks.mono (fun _ _ h => h.1) fun _ _ h => h) (hread _ ?_)).bind (fun l answer h => ?_) fun _ _ _ _ heq => by cases heq
    · split <;> rfl
    · intro state' heq
      cases heq
      exact h _ _ rfl

/-! ## Runs -/

section Runs

variable {fuel ticks : Nat} {A : List (Entry TaskCall.Answer) → (o : TaskCall) → o.Answer → Prop}
  {P : List (Entry TaskCall.Answer) → TaskCall → Prop} {Q : List (Entry TaskCall.Answer) → Except StoreError Unit → Prop}
  {I : AuctioneerState → List (Entry TaskCall.Answer) → Prop}
  {J : Bool → LedgerTick → AuctioneerState → List (Entry TaskCall.Answer) → Prop}

/-- What carries a run: `I` holds between ticks and `J` between a tick's turns,
and `Q` is how a run ends. -/
structure Carried (task : AuctioneerTask) (fuel : Nat) (A : List (Entry TaskCall.Answer) → (o : TaskCall) → o.Answer → Prop)
    (P : List (Entry TaskCall.Answer) → TaskCall → Prop) (Q : List (Entry TaskCall.Answer) → Except StoreError Unit → Prop)
    (I : AuctioneerState → List (Entry TaskCall.Answer) → Prop)
    (J : Bool → LedgerTick → AuctioneerState → List (Entry TaskCall.Answer) → Prop) : Prop where
  waits : ∀ {state l} (o : TaskCall), (o = .changed ∨ o = .stopping) → I state l →
    P l o ∧ ∀ a, A l o a → I state (l ++ [⟨o, a⟩])
  takes : ∀ {state l}, I state l → P l .borrow ∧ ∀ tick : LedgerTick, A l .borrow tick →
    J ((state.gate.observe tick task.cadence.startupDelayLedgers).unlocked && task.submissionQueue) tick
      { state with gate := state.gate.observe tick task.cadence.startupDelayLedgers } (l ++ [⟨.borrow, tick⟩])
  looks : ∀ {submit tick state l}, J submit tick state l →
    P l .stopping ∧ ∀ a, A l .stopping a → J submit tick state (l ++ [⟨.stopping, a⟩])
  turns : ∀ {submit tick state l} {pool : String}, pool ∈ task.pools → J submit tick state l →
    Keeps A P (fun l' r => (∀ state', r = .ok (some state') → J submit tick state' l') ∧
      (r = .ok none → Q l' (.ok ())) ∧ ∀ e, r = .error e → Q l' (.error e)) l (task.poolTick submit tick fuel pool state)
  back : ∀ {submit tick state l}, J submit tick state l → I state l
  ends : ∀ {state l}, I state l → Q l (.ok ())

theorem Carried.poolTicks (h : task.Carried fuel A P Q I J) {pools : List String} (hpools : ∀ pool ∈ pools, pool ∈ task.pools)
    (hJ : J submit tick state l) :
    Keeps A P (fun l' r => (∀ state', r = .ok (some state') → I state' l') ∧
      (r = .ok none → Q l' (.ok ())) ∧ ∀ e, r = .error e → Q l' (.error e)) l
      (task.poolTicks submit tick fuel pools state) := by
  have hdone : ∀ {state l}, J submit tick state l → (∀ state', (.ok (some state) : Except StoreError _) = .ok (some state') →
      I state' l) ∧ ((.ok (some state) : Except StoreError _) = .ok none → Q l (.ok ())) ∧
      ∀ e, (.ok (some state) : Except StoreError _) = .error e → Q l (.error e) := by
    intro state l hJ
    refine ⟨fun state' heq => ?_, fun heq => (by cases heq), fun e heq => by cases heq⟩
    cases heq
    exact h.back hJ
  induction pools generalizing state l with
  | nil => exact hdone hJ
  | cons pool rest ih =>
    obtain ⟨hallowed, hlooked⟩ := h.looks hJ
    refine Keeps.bind_call hallowed fun stopping hstopping => ?_
    have hJ' := hlooked stopping hstopping
    cases stopping with
    | true => exact hdone hJ'
    | false =>
      refine (h.turns (hpools pool List.mem_cons_self) hJ').bind (fun l' answer hanswer => ?_) fun l' error herror => ?_
      · cases answer with
        | none => exact ⟨fun _ heq => (by cases heq), fun _ => hanswer.2.1 rfl, fun _ heq => by cases heq⟩
        | some state' => exact ih (fun pool hpool => hpools pool (List.mem_cons_of_mem _ hpool)) (hanswer.1 _ rfl)
      · refine ⟨fun _ heq => (by cases heq), fun heq => (by cases heq), fun e heq => ?_⟩
        cases heq
        exact herror.2.2 _ rfl

/-- The rule of a run. -/
theorem Carried.loop (h : task.Carried fuel A P Q I J) (hI : I state l) : Keeps A P Q l (task.loopFrom fuel ticks state) := by
  induction ticks generalizing state l with
  | zero => exact h.ends hI
  | succ ticks ih =>
    obtain ⟨hallowed, hwaited⟩ := h.waits .changed (.inl rfl) hI
    refine Keeps.bind_call hallowed fun changed hchanged => ?_
    have hI' := hwaited changed hchanged
    cases changed with
    | false => exact h.ends hI'
    | true =>
      obtain ⟨hallowed, hlooked⟩ := h.waits .stopping (.inr rfl) hI'
      refine Keeps.bind_call hallowed fun stopping hstopping => ?_
      have hI'' := hlooked stopping hstopping
      cases stopping with
      | true => exact h.ends hI''
      | false =>
        obtain ⟨hallowed, htaken⟩ := h.takes hI''
        refine Keeps.bind_call hallowed fun tick htick => ?_
        refine (h.poolTicks (fun _ hpool => hpool) (htaken tick htick)).bind (fun l' answer hanswer => ?_) fun l' error herror =>
          herror.2.2 _ rfl
        cases answer with
        | none => exact hanswer.2.1 rfl
        | some state' => exact ih (hanswer.1 _ rfl)

end Runs

/-! ## The startup delay -/

/-- The gate stands as the ticks taken say. -/
def Gated (task : AuctioneerTask) (l : List (Entry TaskCall.Answer)) (gate : StartupGate) : Prop :=
  gate.firstTickLedger = (ticksOf l).head?.map (·.sequence) ∧ (gate.unlocked = true → task.Waited l)

theorem ticksOf_of_not {more : List (Entry TaskCall.Answer)} (h : ∀ e ∈ more, e.1.borrows = false) : ticksOf more = [] := by
  refine List.filterMap_eq_nil_iff.2 fun e he => ?_
  have hother := h e he
  obtain ⟨o, a⟩ := e
  cases o with
  | borrow => cases hother
  | changed => rfl
  | stopping => rfl
  | write statement => rfl
  | needing pool limit => rfl
  | below pool threshold limit after => rfl
  | reading call => rfl
  | acting call => rfl
  | creation attempt => rfl
  | notify notification => rfl

theorem Gated.congr {gate : StartupGate} {l' : List (Entry TaskCall.Answer)} (h : task.Gated l gate)
    (hticks : ticksOf l' = ticksOf l) : task.Gated l' gate := by
  unfold Gated Waited
  rw [hticks]
  exact h

theorem Gated.call {gate : StartupGate} (h : task.Gated l gate) {o : TaskCall} {a : o.Answer} (ho : o.borrows = false) :
    task.Gated (l ++ [⟨o, a⟩]) gate := by
  have hnone : ticksOf [(⟨o, a⟩ : Entry TaskCall.Answer)] = [] :=
    ticksOf_of_not fun e he => by rw [List.mem_singleton.1 he]; exact ho
  refine h.congr ?_
  rw [ticksOf_append, hnone, List.append_nil]

theorem Gated.observe {gate : StartupGate} (h : task.Gated l gate) (tick : LedgerTick) :
    task.Gated (l ++ [⟨.borrow, tick⟩]) (gate.observe tick task.cadence.startupDelayLedgers) := by
  obtain ⟨hfirst, hunlocked⟩ := h
  have hticks : ticksOf (l ++ [⟨.borrow, tick⟩]) = ticksOf l ++ [tick] := ticksOf_append
  have hhead : (ticksOf (l ++ [⟨.borrow, tick⟩])).head? = some ((ticksOf l).head?.getD tick) := by
    rw [hticks]
    cases ticksOf l <;> rfl
  have hledger : gate.firstTickLedger.getD tick.sequence = ((ticksOf l).head?.getD tick).sequence := by
    rw [hfirst]
    cases (ticksOf l).head? <;> rfl
  refine ⟨?_, fun hopen => ?_⟩
  · rw [hhead, StartupGate.observe, hledger]
    rfl
  · rw [StartupGate.observe, Bool.or_eq_true, decide_eq_true_eq, hledger] at hopen
    rcases hopen with hopen | hdelay
    · exact (hunlocked hopen).append
    · exact ⟨_, tick, hhead, by simp [hticks], hdelay⟩

theorem ticksOf_during (h : During before tick since l) : ticksOf l = ticksOf (before ++ [⟨.borrow, tick⟩]) := by
  rw [h.split, List.append_cons, ticksOf_append, ticksOf_of_not h.own, List.append_nil]

/-- The grounds of a run: where it stands in a tick, and its gate. -/
def Gating (task : AuctioneerTask) (submit : Bool) (tick : LedgerTick) (state : AuctioneerState)
    (l : List (Entry TaskCall.Answer)) : Prop :=
  ∃ gate before, task.Standing submit tick gate before state l ∧ task.Gated l gate

theorem carried_grounded {fuel : Nat} :
    task.Carried fuel (fun _ _ _ => True) task.Grounded (fun _ _ => True) (fun state l => task.Gated l state.gate)
      task.Gating where
  waits o ho hI := by
    rcases ho with rfl | rfl <;> exact ⟨trivial, fun a _ => hI.call rfl⟩
  takes := by
    intro state l hI
    refine ⟨trivial, fun tick _ => ⟨_, l, ⟨rfl, ⟨[], rfl, fun e he => absurd he List.not_mem_nil⟩, fun since hsubmit => ?_⟩,
      hI.observe tick⟩⟩
    rw [Bool.and_eq_true] at hsubmit
    refine ⟨hsubmit.2, ?_⟩
    rw [List.append_cons]
    exact ((hI.observe tick).2 hsubmit.1).append
  looks := by
    rintro submit tick state l ⟨gate, before, ⟨hgate, ⟨since, hduring⟩, hsubmits⟩, hgated⟩
    exact ⟨trivial, fun a _ => ⟨gate, before, ⟨hgate, ⟨_, hduring.call rfl⟩, hsubmits⟩, hgated.call rfl⟩⟩
  turns := by
    rintro submit tick state l pool hpool ⟨gate, before, hstanding, hgated⟩
    refine (poolTick_keeps hpool hstanding).mono (fun _ _ h => h) fun l' r hr =>
      ⟨fun state' heq => ⟨gate, before, hr state' heq, hgated.congr ?_⟩, fun _ => trivial, fun _ _ => trivial⟩
    obtain ⟨since, hduring⟩ := hstanding.during
    obtain ⟨since', hduring'⟩ := (hr state' heq).during
    rw [ticksOf_during hduring, ticksOf_during hduring']
  back := by
    rintro submit tick state l ⟨gate, before, hstanding, hgated⟩
    rw [hstanding.gate]
    exact hgated
  ends _ := trivial

/-- **Only this tick's decisions are sent.** In every run of the task, whatever
it is answered, an operation goes to the queue only with a signing key, armed
and past the startup delay, and only the operation of a decision to act made in
that same tick: on a snapshot naming the borrower, who is none of the bot's own
and has no open auction, with the operation accepted by the contract and its row
written. -/
theorem sends_this_ticks_decisions (task : AuctioneerTask) (ticks fuel : Nat) :
    Keeps (fun _ _ _ => True) task.Grounded (fun _ _ => True) [] (task.auctioneerLoop ticks fuel) :=
  carried_grounded.loop ⟨rfl, fun h => by cases h⟩

end AuctioneerTask

end BlendLiquidator
