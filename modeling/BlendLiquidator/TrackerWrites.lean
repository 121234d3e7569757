/-
What the tracker writes of the users table: rows written, rows deleted and
flags raised, and nothing else, whatever message it handles and however the
world answers. These are the statements an auctioneer's turn is run beside
(`recheck`), so whatever holds of a turn beside any of them holds beside the
tracker's loop: a turn that the loop's messages come between (`alongside`) goes
where some run of the statements takes it.
-/
import BlendLiquidator.AuctionTable
import BlendLiquidator.RecheckFacts
import BlendLiquidator.ServiceFacts

namespace BlendLiquidator

open Calls Oracle

/-- The users table is what the tracker's statements made of the one it started
with. -/
def WritesOnly (start : Store) (s : TrackerState) : Prop :=
  ∃ writes : List TrackerWrite,
    s.store.users = (writes.foldl (fun store write => write.statement.apply store) start).users

section Writes

variable {env : Nat → Reading} {c : Service} {start : Store} {pool account : String} {tick : LedgerTick}

/-- A statement looks at the users table alone. -/
theorem users_apply {store store' : Store} (write : TrackerWrite) (h : store.users = store'.users) :
    (write.statement.apply store).users = (write.statement.apply store').users := by
  obtain ⟨users, auctions⟩ := store
  obtain ⟨users', auctions'⟩ := store'
  obtain rfl : users = users' := h
  cases write <;> rfl

theorem WritesOnly.wrote {s s' : TrackerState} (h : WritesOnly start s) (write : TrackerWrite)
    (hs : s'.store.users = (write.statement.apply s.store).users) : WritesOnly start s' := by
  obtain ⟨writes, hwrites⟩ := h
  refine ⟨writes ++ [write], ?_⟩
  rw [List.foldl_append, hs]
  exact users_apply write hwrites

/-- A statement of the tracker's is one of the three, or on another table. -/
theorem recorded_writes {α : Type} {acts : Store → List Did} {run : Store → α × Store}
    (h : ∀ store, (run store).2.users = store.users ∨
      ∃ write : TrackerWrite, (run store).2.users = (write.statement.apply store).users) :
    Stays env (WritesOnly start) (recorded acts run) := by
  refine recorded_stays fun s hs => ?_
  rcases h s.store with hsame | ⟨write, hwrite⟩
  · obtain ⟨writes, hwrites⟩ := hs
    exact ⟨writes, hsame.trans hwrites⟩
  · exact hs.wrote write hwrite

/-- A statement that leaves the users table alone. -/
theorem unrelated_writes {α : Type} {run : Store → α × Store} (h : ∀ store, (run store).2.users = store.users) :
    Stays env (WritesOnly start) (statement run) := recorded_writes fun store => .inl (h store)

theorem did_writes {ε : Type} {act : Did} : Stays env (WritesOnly start) (did act : Tracking ε Unit) :=
  Stays.modify fun _ => id

theorem setLoop_writes {ε : Type} {change : LoopState → LoopState} :
    Stays env (WritesOnly start) (setLoop change : Tracking ε Unit) := Stays.modify fun _ => id

theorem refreshAccount_writes {snapshot : PoolSnapshot} {valuedAt : Nat} {outcome : RefreshOutcome} :
    Stays env (WritesOnly start) (Tracker.refreshAccount pool snapshot valuedAt outcome account) := by
  refine Stays.lift.bind fun health => ?_
  dsimp only
  split
  · refine Stays.lift.bind fun _ => (recorded_writes fun store => .inr ?_).bind fun _ => Stays.pure
    exact ⟨.upsert _, rfl⟩
  · refine (recorded_writes fun store => .inr ?_).bind fun _ => Stays.pure
    exact ⟨.delete pool account, rfl⟩

theorem refresh_writes {accounts : List String} :
    Stays env (WritesOnly start) (Tracker.refresh pool accounts tick) := by
  unfold Tracker.refresh
  split
  · exact Stays.pure
  · refine Stays.ask.bind fun answer => Stays.lift.bind fun snapshot => did_writes.bind fun _ => ?_
    refine (Stays.foldlM fun _ _ _ => refreshAccount_writes).bind fun _ => ?_
    exact did_writes.bind fun _ => Stays.pure

theorem refreshAndFlag_writes {accounts : List String} :
    Stays env (WritesOnly start) (Service.refreshAndFlag pool accounts tick) := by
  refine refresh_writes.bind fun _ => Stays.foldlM fun account _ _ => ?_
  refine (recorded_writes fun store => .inr ?_).bind fun _ => did_writes
  exact ⟨.flag pool account tick.sequence, rfl⟩

theorem glance_writes : Stays env (WritesOnly start) glance := unrelated_writes fun _ => rfl

theorem seedBatches_writes {batch left : Nat} {accounts : List String} {outcome : SeedOutcome} :
    Stays env (WritesOnly start) (Tracker.seedBatches pool tick batch left accounts outcome) := by
  induction left generalizing accounts outcome with
  | zero => exact Stays.pure
  | succ left ih =>
    unfold Tracker.seedBatches
    split
    · exact Stays.pure
    · refine Stays.ask.bind fun stopping => ?_
      split
      · exact did_writes.bind fun _ => Stays.pure
      · exact refresh_writes.bind fun _ => ih

theorem reseed_writes : Stays env (WritesOnly start) (c.reseed pool tick) := by
  have hseed : Stays env (WritesOnly start) (Tracker.seed pool c.seedSources tick c.cadence.refreshBatch) :=
    collect_stays.bind fun _ => seedBatches_writes.bind fun _ => did_writes.bind fun _ => Stays.pure
  refine hseed.bind fun outcome => glance_writes.bind fun _ => ?_
  unfold Service.settleSeed
  split
  · exact setLoop_writes
  · exact Stays.pure

theorem applyTick_writes {accounts : List String} :
    Stays env (WritesOnly start) (c.applyTick pool accounts tick) := by
  refine refreshAndFlag_writes.bind fun _ => (unrelated_writes fun _ => rfl).bind fun stale => ?_
  refine refreshAndFlag_writes.bind fun _ => Stays.bind ?_ fun _ => Stays.read.bind fun last => ?_
  · unfold Service.regaugeUsers
    split
    · exact glance_writes
    · exact Stays.pure
  · split
    · have hscan : Stays env (WritesOnly start) (c.fullScan pool tick) := by
        refine glance_writes.bind fun _ => glance_writes.bind fun _ => Stays.read.bind fun owed => ?_
        split
        · exact reseed_writes
        · exact Stays.pure
      refine hscan.caught.bind fun result => ?_
      split
      · exact Stays.fail
      · exact setLoop_writes
    · exact Stays.pure

theorem apply_writes {ledger : Nat} {event : PoolEvent} :
    Stays env (WritesOnly start) (Tracker.apply pool ledger event) := by
  refine Stays.bind ?_ fun _ => Stays.pure
  unfold Tracker.applyAuction
  split
  · exact unrelated_writes fun _ => rfl
  · split
    · exact unrelated_writes fun _ => rfl
    · refine Stays.ask.bind fun answer => Stays.lift.bind fun entry => ?_
      split
      · exact unrelated_writes fun _ => rfl
      · exact unrelated_writes fun _ => rfl
  · exact unrelated_writes fun _ => rfl
  · exact Stays.pure

/-- Whatever the tracker does with a message, the users table is what some of
its three kinds of statement make of it. -/
theorem handleMessage_writes {pass : Nat} {message : PollerMessage} :
    Stays env (WritesOnly start) (c.handleMessage pass message) := by
  cases message with
  | event pool ledger event =>
    refine apply_writes.caught.bind fun result => ?_
    cases result with
    | ok accounts => exact setLoop_writes.bind fun _ => did_writes
    | error error => exact setLoop_writes.bind fun _ => did_writes.bind fun _ => Stays.fail
  | tick pool tick ack =>
    refine Stays.read.bind fun accounts => Stays.read.bind fun unapplied => setLoop_writes.bind fun _ => ?_
    refine applyTick_writes.caught.bind fun result => ?_
    cases result with
    | error error => exact setLoop_writes.bind fun _ => did_writes.bind fun _ => Stays.fail
    | ok _ =>
      dsimp only
      split
      · exact did_writes
      · refine did_writes.bind fun _ => Stays.modify fun s hs => ?_
        split
        · exact hs
        · exact hs
  | gap pool _ _ =>
    refine did_writes.bind fun _ => setLoop_writes.bind fun _ => Stays.ask.bind fun answer => ?_
    exact Stays.lift.bind fun head => reseed_writes

end Writes

/-! ## Turns beside the loop -/

/-- A message, sent in a pass, and how the world answers the loop from some
moment on. -/
structure Handling where
  pass : Nat
  message : PollerMessage
  env : Nat → Reading
  moment : Nat

/-- The auctioneer's turns on the store of the tracker's loop, which handles whole
messages between their calls. -/
def Service.alongside (c : Service) :
    Machine RecheckCall RecheckCall.Answer StoreError TrackerState RecheckWorld Handling Turn where
  other s handling := (c.handleMessage handling.pass handling.message handling.env handling.moment s).2.2
  exec s w o :=
    let (answer, after) := RecheckState.exec { store := s.store } w o
    (answer, { s with store := after.store })
  program := Turn.program

/-- Where a turn stands beside the loop is where one stands beside statements. -/
def Matched (start : Store) (j : Joint RecheckCall RecheckCall.Answer StoreError TrackerState) : Prop :=
  ∃ j', Rechecked (fun _ _ => True) start j' ∧ j'.task = j.task ∧ j'.state.store.users = j.state.store.users

section Alongside

variable {c : Service} {start : Store} {s : TrackerState} {r : RecheckState}

/-- The tracker's statements, one after the other. -/
theorem Rechecked.wrote {j : RecheckSystem} (h : Rechecked (fun _ _ => True) start j) {store : Store}
    (husers : j.state.store.users = store.users) (writes : List TrackerWrite) :
    ∃ j', Rechecked (fun _ _ => True) start j' ∧ j'.task = j.task ∧
      j'.state.store.users = (writes.foldl (fun store write => write.statement.apply store) store).users := by
  induction writes generalizing j store with
  | nil => exact ⟨j, h, rfl, husers⟩
  | cons write writes ih =>
    have hother : Rechecked (fun _ _ => True) start (recheck.step j (.other write)) :=
      h.tail (Machine.holding_true _ _)
    exact ih hother (users_apply write husers)

/-- A call is answered from the users table, and leaves it as that alone says. -/
theorem exec_users (h : r.store.users = s.store.users) (w : RecheckWorld) (o : RecheckCall) :
    (r.exec w o).1 = (c.alongside.exec s w o).1 ∧
      (r.exec w o).2.store.users = (c.alongside.exec s w o).2.store.users := by
  obtain ⟨store, held, sinceBatch, acted, scanning, cursor, sinceScan⟩ := r
  obtain ⟨users, auctions⟩ := store
  obtain ⟨⟨users', auctions'⟩, loop, published, acts⟩ := s
  obtain rfl : users = users' := h
  obtain ⟨answer, executed, decided, acts, moves, stopping⟩ := w
  cases o with
  | write statement =>
    refine ⟨rfl, ?_⟩
    simp only [Service.alongside, RecheckState.exec]
    split
    · cases statement <;> rfl
    · rfl
  | needing pool limit => cases answer <;> exact ⟨rfl, rfl⟩
  | below pool threshold limit after => cases answer <;> exact ⟨rfl, rfl⟩
  | decide pool batch tick => exact ⟨rfl, rfl⟩
  | act pool account decision tick => exact ⟨rfl, rfl⟩
  | moves pool tick => exact ⟨rfl, rfl⟩
  | stopping => exact ⟨rfl, rfl⟩

/-- One move: a message is some of the statements, and a move of the auctioneer's
the same move. -/
theorem Matched.step {j : Joint RecheckCall RecheckCall.Answer StoreError TrackerState} (h : Matched start j)
    (move : Move Handling Turn RecheckWorld) : Matched start (c.alongside.step j move) := by
  obtain ⟨j', hrun, htask, husers⟩ := h
  obtain ⟨s, task⟩ := j
  obtain ⟨r, task'⟩ := j'
  obtain rfl : task' = task := htask
  cases move with
  | other handling =>
    obtain ⟨writes, hwrites⟩ : WritesOnly s.store (c.alongside.other s handling) :=
      (handleMessage_writes handling.moment s ⟨[], rfl⟩).2
    obtain ⟨j', hrun', htask', husers'⟩ := hrun.wrote husers writes
    exact ⟨j', hrun', htask', husers'.trans hwrites.symm⟩
  | begins turn =>
    refine ⟨_, hrun.tail (l := .begins turn) (Machine.holding_true _ _), ?_, ?_⟩
    · cases task' <;> rfl
    · cases task' <;> exact husers
  | answers w =>
    refine ⟨_, hrun.tail (l := .answers w) (Machine.holding_true _ _), ?_⟩
    cases task' with
    | none => exact ⟨rfl, husers⟩
    | some program =>
      cases program with
      | ret a => exact ⟨rfl, husers⟩
      | fail e => exact ⟨rfl, husers⟩
      | op o next =>
        obtain ⟨hanswer, hafter⟩ := exec_users (c := c) husers w o
        exact ⟨congrArg (fun answer => Machine.running (next answer)) hanswer, hafter⟩

end Alongside

end BlendLiquidator
