/-
What the tracker's functions leave alone, and what a tick that applied has
done: the frame of every function below `handle_message`, once for all
invariants, and then the one fact a tick's answer rests on, that each account
it was given was re-read and then flagged.
-/
import BlendLiquidator.Service
import BlendLiquidator.TreeMaps

namespace BlendLiquidator

open Oracle

/-- The acts of the functions below `handle_message`, working for `pool`. -/
def Did.Inner (pool : String) : Did → Prop
  | .read p _ _ _ | .row p _ _ _ _ | .refreshed p _ | .flagged p _ _ | .stopped p _ | .seeded p _ => p = pool
  | .event _ _ _ _ _ | .tick _ _ _ _ _ | .gap _ => False

/-- An inner act that is no part of a refresh. -/
def Did.Plain (pool : String) : Did → Prop
  | .flagged p _ _ | .stopped p _ | .seeded p _ => p = pool
  | _ => False

theorem Did.Plain.inner {pool : String} {act : Did} (h : act.Plain pool) : act.Inner pool := by
  cases act with
  | flagged | stopped | seeded => exact h
  | event | tick | gap | read | row | refreshed => exact h.elim

/-- A predicate that a change of the store leaving each borrower's row at its
ledger does not disturb. -/
def Unmoved (I : TrackerState → Prop) : Prop :=
  ∀ s store, (∀ p a, store.computedAt p a = s.store.computedAt p a) → I s → I { s with store }

/-- A predicate that neither the store nor an inner act for `pool` disturbs. -/
structure Steady (pool : String) (I : TrackerState → Prop) : Prop where
  store : ∀ s store, I s → I { s with store }
  act : ∀ s act, act.Inner pool → I s → I { s with acts := s.acts ++ [act] }

/-- A predicate that `refresh`, as a function of its own, keeps, and nothing
else below `handle_message` disturbs. -/
structure Framed (pool : String) (tick : LedgerTick) (I : TrackerState → Prop) : Prop where
  unmoved : Unmoved I
  refresh : ∀ env accounts, Stays env I (Tracker.refresh pool accounts tick)
  act : ∀ s act, act.Plain pool → I s → I { s with acts := s.acts ++ [act] }

section Frame

variable {env : Nat → Reading} {pool : String} {tick : LedgerTick} {I : TrackerState → Prop}

theorem recorded_stays {α : Type} {acts : Store → List Did} {run : Store → α × Store}
    (h : ∀ s, I s → I (executed acts run s)) : Stays env I (recorded acts run) := by
  refine Stays.ask.bind fun answer => Stays.read.bind fun result => ?_
  obtain ⟨answer, took⟩ := answer
  cases answer with
  | ok _ => exact (Stays.modify h).bind fun _ => Stays.pure
  | error error =>
    refine (Stays.modify fun s hs => ?_).bind fun _ => Stays.fail
    split
    · exact h s hs
    · exact hs

/-- A statement that succeeds took effect. -/
theorem recorded_gives {α : Type} {acts : Store → List Did} {run : Store → α × Store} {P Q : TrackerState → Prop}
    (h : ∀ s, P s → Q (executed acts run s)) : Gives env P (recorded acts run) fun _ => Q := by
  refine Gives.after Stays.ask fun answer => Gives.after Stays.read fun result => ?_
  obtain ⟨answer, took⟩ := answer
  cases answer with
  | ok _ => exact fun _ s hs _ _ => h s hs
  | error error => exact fun _ _ _ _ ha => nomatch ha

theorem statement_stays {α : Type} {run : Store → α × Store} (h : Unmoved I)
    (hrun : ∀ store p a, (run store).2.computedAt p a = store.computedAt p a) :
    Stays env I (statement run) := by
  refine recorded_stays fun s hs => ?_
  unfold executed
  rw [List.append_nil]
  exact h s _ (fun p a => hrun s.store p a) hs

theorem execute_stays {run : Store → Store} (h : Unmoved I)
    (hrun : ∀ store p a, (run store).computedAt p a = store.computedAt p a) : Stays env I (execute run) :=
  statement_stays h hrun

theorem glance_stays (h : Unmoved I) : Stays env I glance := execute_stays h fun _ _ _ => rfl

theorem did_stays {ε : Type} {act : Did} (h : ∀ s, I s → I { s with acts := s.acts ++ [act] }) :
    Stays env I (did act : Tracking ε Unit) := Stays.modify h

theorem setLoop_stays {ε : Type} {change : LoopState → LoopState}
    (h : ∀ s, I s → I { s with loop := change s.loop }) : Stays env I (setLoop change : Tracking ε Unit) :=
  Stays.modify h

/-! ## A refresh -/

theorem refreshAccount_stays {snapshot : PoolSnapshot} {valuedAt : Nat} {outcome : RefreshOutcome}
    {account : String} (h : Steady pool I) :
    Stays env I (Tracker.refreshAccount pool snapshot valuedAt outcome account) := by
  have hrow : ∀ {α : Type} {kept : Bool} {run : Store → α × Store}, Stays env I (recorded (fun store =>
      [.row pool account (store.computedAt pool account) snapshot.ledger kept]) run) :=
    recorded_stays fun s hs => h.act _ _ (by rfl) (h.store s _ hs)
  refine Stays.lift.bind fun health => ?_
  dsimp only
  split
  · exact Stays.lift.bind fun _ => hrow.bind fun _ => Stays.pure
  · exact hrow.bind fun _ => Stays.pure

theorem refresh_stays {accounts : List String} (h : Steady pool I) :
    Stays env I (Tracker.refresh pool accounts tick) := by
  unfold Tracker.refresh
  split
  · exact Stays.pure
  · refine Stays.ask.bind fun answer => Stays.lift.bind fun snapshot => ?_
    refine (did_stays fun s => h.act s _ (by rfl)).bind fun _ => ?_
    refine (Stays.foldlM fun _ _ _ => refreshAccount_stays h).bind fun _ => ?_
    exact (did_stays fun s => h.act s _ (by rfl)).bind fun _ => Stays.pure

theorem Steady.framed (h : Steady pool I) : Framed pool tick I where
  unmoved s store _ := h.store s store
  refresh _ _ := refresh_stays h
  act s act hact := h.act s act hact.inner

/-- The record only grows. -/
theorem longer_steady {base : List Did} : Steady pool fun s => base <+: s.acts where
  store _ _ h := h
  act _ _ _ h := h.trans (List.prefix_append _ _)

/-! ## Seeds, flags and events -/

theorem collect_stays {sources failed : Nat} {accounts : BTreeSet String} :
    Stays env I (Tracker.collect sources accounts failed) := by
  induction sources generalizing accounts failed with
  | zero => exact Stays.pure
  | succ sources ih =>
    refine Stays.ask.bind fun found => ?_
    cases found with
    | some found => exact ih
    | none => exact ih

theorem seedBatches_stays {batch left : Nat} {accounts : List String} {outcome : SeedOutcome}
    (h : Framed pool tick I) : Stays env I (Tracker.seedBatches pool tick batch left accounts outcome) := by
  induction left generalizing accounts outcome with
  | zero => exact Stays.pure
  | succ left ih =>
    unfold Tracker.seedBatches
    split
    · exact Stays.pure
    · refine Stays.ask.bind fun stopping => ?_
      split
      · exact (did_stays fun s => h.act s _ (by rfl)).bind fun _ => Stays.pure
      · exact (h.refresh _ _).bind fun _ => ih

theorem seed_stays {sources batch : Nat} (h : Framed pool tick I) :
    Stays env I (Tracker.seed pool sources tick batch) := by
  refine collect_stays.bind fun collected => (seedBatches_stays h).bind fun outcome => ?_
  exact (did_stays fun s => h.act s _ (by rfl)).bind fun _ => Stays.pure

theorem flagAll_stays {accounts : List String} {ledger : Nat} (h : Framed pool tick I) :
    Stays env I (flagAll pool accounts ledger) := by
  refine Stays.foldlM fun account _ _ => ?_
  refine (execute_stays h.unmoved fun _ _ _ => Store.computedAt_flagRecheck).bind fun _ => ?_
  exact did_stays fun s => h.act s _ (by rfl)

theorem refreshAndFlag_stays {accounts : List String} (h : Framed pool tick I) :
    Stays env I (Service.refreshAndFlag pool accounts tick) :=
  (h.refresh _ _).bind fun _ => flagAll_stays h

theorem apply_stays {ledger : Nat} {event : PoolEvent} (h : Unmoved I) :
    Stays env I (Tracker.apply pool ledger event) := by
  refine Stays.bind ?_ fun _ => Stays.pure
  unfold Tracker.applyAuction
  split
  · exact execute_stays h fun _ _ _ => rfl
  · split
    · exact execute_stays h fun _ _ _ => rfl
    · refine Stays.ask.bind fun answer => Stays.lift.bind fun entry => ?_
      split
      · exact execute_stays h fun _ _ _ => rfl
      · exact execute_stays h fun _ _ _ => rfl
  · exact execute_stays h fun _ _ _ => rfl
  · exact Stays.pure

end Frame

/-- A framed predicate that `reseed`, as a function of its own, keeps, and
that the record of the last scan does not disturb. -/
structure Looping (c : Service) (pool : String) (tick : LedgerTick) (I : TrackerState → Prop) : Prop
    extends Framed pool tick I where
  reseed : ∀ env, Stays env I (c.reseed pool tick)
  scanned : ∀ s ledger, I s → I { s with loop := { s.loop with lastScan := s.loop.lastScan.insert pool ledger } }

/-- A framed predicate that the two fields only scans touch do not disturb
either. -/
structure Scanning (pool : String) (tick : LedgerTick) (I : TrackerState → Prop) : Prop
    extends Framed pool tick I where
  reseeded : ∀ s, I s → I { s with loop := { s.loop with needsReseed := s.loop.needsReseed.erase pool } }
  scanned : ∀ s ledger, I s → I { s with loop := { s.loop with lastScan := s.loop.lastScan.insert pool ledger } }

section Scan

variable {env : Nat → Reading} {c : Service} {pool : String} {tick : LedgerTick} {I : TrackerState → Prop}

theorem reseed_stays (h : Scanning pool tick I) : Stays env I (c.reseed pool tick) := by
  refine (seed_stays h.toFramed).bind fun outcome => (glance_stays h.unmoved).bind fun _ => ?_
  unfold Service.settleSeed
  split
  · exact Stays.modify h.reseeded
  · exact Stays.pure

theorem Scanning.looping (h : Scanning pool tick I) : Looping c pool tick I where
  toFramed := h.toFramed
  reseed _ := reseed_stays h
  scanned := h.scanned

theorem fullScan_stays (h : Looping c pool tick I) : Stays env I (c.fullScan pool tick) := by
  refine (glance_stays h.unmoved).bind fun _ => (glance_stays h.unmoved).bind fun _ => ?_
  refine Stays.read.bind fun owed => ?_
  split
  · exact h.reseed env
  · exact Stays.pure

theorem scan_stays (h : Looping c pool tick I) : Stays env I (c.scan pool tick) := by
  refine (fullScan_stays h).caught.bind fun result => ?_
  split
  · exact Stays.fail
  · exact Stays.modify fun s hs => h.scanned s _ hs

theorem regaugeUsers_stays {touched : Bool} (h : Unmoved I) :
    Stays env I (Service.regaugeUsers touched) := by
  unfold Service.regaugeUsers
  split
  · exact glance_stays h
  · exact Stays.pure

theorem applyTick_stays {accounts : List String} (h : Looping c pool tick I) :
    Stays env I (c.applyTick pool accounts tick) := by
  refine (refreshAndFlag_stays h.toFramed).bind fun _ => ?_
  refine (statement_stays h.unmoved fun _ _ _ => rfl).bind fun stale => ?_
  refine (refreshAndFlag_stays h.toFramed).bind fun _ => (regaugeUsers_stays h.unmoved).bind fun _ => ?_
  refine Stays.read.bind fun last => ?_
  split
  · exact scan_stays h
  · exact Stays.pure

end Scan

/-! ## A message -/

/-- The state in which a tick of `pool` is applied: its share taken out. -/
def taken (pool : String) (s : TrackerState) : TrackerState :=
  { s with loop := { s.loop with
      pending := s.loop.pending.erase pool
      unapplied := s.loop.unapplied.erase pool } }

/-- The state in which the seed after a gap is tried. -/
def gapped (pool : String) (s : TrackerState) : TrackerState :=
  { s with
    loop := { s.loop with needsReseed := s.loop.needsReseed.insert pool }
    acts := s.acts ++ [.gap pool] }

/-- The acts of `handle_message` itself that end a message of `pool`. -/
def Did.Ends (pool : String) : Did → Prop
  | .event p _ _ _ _ | .tick p _ _ _ _ => p = pool
  | _ => False

/-- A predicate that nothing a message of `pool` does disturbs. -/
structure Messaging (c : Service) (pool : String) (I : TrackerState → Prop) : Prop where
  looping : ∀ tick, Looping c pool tick I
  extended : ∀ s accounts, I s → I { s with loop := { s.loop with pending := s.loop.pending.insert pool accounts } }
  marked : ∀ s, I s → I { s with loop := { s.loop with unapplied := s.loop.unapplied.insert pool } }
  taken : ∀ s, I s → I (taken pool s)
  gapped : ∀ s, I s → I (gapped pool s)
  ends : ∀ s act, act.Ends pool → I s → I { s with acts := s.acts ++ [act] }
  published : ∀ s tick, I s → I { s with published := tick }

section Message

variable {env : Nat → Reading} {c : Service} {pool : String} {I : TrackerState → Prop}

theorem Messaging.unmoved (h : Messaging c pool I) : Unmoved I := (h.looping ⟨0, 0⟩).unmoved

theorem handleEvent_stays {pass ledger : Nat} {event : PoolEvent} (h : Messaging c pool I) :
    Stays env I (Service.handleEvent pass pool ledger event) := by
  refine (apply_stays h.unmoved).caught.bind fun result => ?_
  cases result with
  | ok accounts =>
    exact (setLoop_stays fun s => h.extended s _).bind fun _ => did_stays fun s => h.ends s _ (by rfl)
  | error error =>
    refine (setLoop_stays h.marked).bind fun _ => ?_
    exact (did_stays fun s => h.ends s _ (by rfl)).bind fun _ => Stays.fail

theorem handleTick_stays {tick : LedgerTick} {ack : Nat} (h : Messaging c pool I) :
    Stays env I (c.handleTick pool tick ack) := by
  refine Stays.read.bind fun accounts => Stays.read.bind fun unapplied => ?_
  refine (setLoop_stays h.taken).bind fun _ => (applyTick_stays (h.looping tick)).caught.bind fun result => ?_
  cases result with
  | ok _ =>
    dsimp only
    split
    · exact did_stays fun s => h.ends s _ (by rfl)
    · refine (did_stays fun s => h.ends s _ (by rfl)).bind fun _ => Stays.modify fun s hs => ?_
      split
      · exact h.published s tick hs
      · exact hs
  | error error =>
    refine (setLoop_stays fun s => h.extended s _).bind fun _ => ?_
    exact (did_stays fun s => h.ends s _ (by rfl)).bind fun _ => Stays.fail

theorem handleGap_stays (h : Messaging c pool I) : Stays env I (c.handleGap pool) := by
  have hrest : Stays env I (do
      let answer ← Prog.ask Reading.latestLedger
      let head ← Prog.lift (answer.mapError fun error => TrackerError.chain error.chain)
      c.reseed pool { sequence := head.sequence, closeTime := head.closeTime }) :=
    Stays.ask.bind fun answer => Stays.lift.bind fun head => (h.looping _).reseed env
  -- Recorded and owed in one step.
  exact fun t s hs => hrest t (gapped pool s) (h.gapped s hs)

/-- What a message may do to whatever is watched. -/
theorem handleMessage_stays {pass : Nat} {message : PollerMessage} (h : Messaging c message.pool I) :
    Stays env I (c.handleMessage pass message) := by
  cases message with
  | event pool ledger event => exact handleEvent_stays h
  | tick pool tick ack => exact handleTick_stays h
  | gap pool _ _ => exact handleGap_stays h

end Message

end BlendLiquidator
