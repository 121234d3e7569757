/-
When a tick fails although every call succeeds: an account of one of its two
batches that cannot be valued fails the whole batch, and with it the tick.

A refresh in a world that answers is a function of its snapshot: each account
has a row to write, or one to delete, or cannot be valued (`refreshedRow`).
`full_scan`'s seed may meet the same account and costs no tick.
-/
import BlendLiquidator.FillSound
import BlendLiquidator.RefreshFacts

namespace BlendLiquidator

open Oracle Results

namespace Tracker

/-- What a refresh makes of an account's row: the row to write, or `none` for
one to delete. -/
def refreshedRow (pool : String) (snapshot : PoolSnapshot) (valuedAt : Nat) (account : String) :
    Except TrackerError (Option TrackedUser) := do
  let health ← refreshedHealth snapshot account valuedAt
  match snapshot.positions[account]?, health with
  | some positions, some health =>
    let healthFactor ← (mulFloor health SCALAR_7 snapshot.prices.scalar).mapError .math
    pure (some {
      pool := pool
      account := account
      healthFactor := healthFactor
      collateral := positions.collateral
      liabilities := positions.liabilities
      updatedLedger := snapshot.ledger
      recheckLedger := none })
  | _, _ => pure none

/-- The account's row written, or deleted. -/
def rewritten (pool account : String) (store : Store) : Option TrackedUser → Store
  | some row => store.upsertUser row
  | none => store.deleteUser pool account

/-- The account can be valued from the snapshot. -/
def Valued (pool : String) (snapshot : PoolSnapshot) (tick : LedgerTick) (account : String) : Prop :=
  ∃ row, refreshedRow pool snapshot (snapshot.valuedAt tick.closeTime) account = .ok row

end Tracker

/-- A world that answers: no snapshot and no statement fails. -/
structure Answers (env : Nat → Reading) : Prop where
  snapshot : ∀ t, ∃ snapshot, (env t).snapshot = .ok snapshot
  store : ∀ t, ∃ u, (env t).store = .ok u

/-! ## A run in such a world -/

section Runs

variable {α β : Type} {env : Nat → Reading} {m : Tracking TrackerError α} {f : α → Tracking TrackerError β}
  {t t' t'' : Nat} {s : TrackerState} {a : α} {R : α → Store → Prop} {Q : β → Store → Prop}

/-- The program answers at the moment `t'`, and `R` holds of its answer and of
the store. -/
def Finishes (m : Tracking TrackerError α) (env : Nat → Reading) (t : Nat) (s : TrackerState) (t' : Nat)
    (R : α → Store → Prop) : Prop :=
  ∃ a s', m env t s = (.ok a, t', s') ∧ R a s'.store

def Fails (m : Tracking TrackerError α) (env : Nat → Reading) (t : Nat) (s : TrackerState) : Prop :=
  ∃ e t' s', m env t s = (.err e, t', s')

theorem Finishes.bind (hm : Finishes m env t s t' R)
    (hf : ∀ a s', R a s'.store → Finishes (f a) env t' s' t'' Q) : Finishes (m >>= f) env t s t'' Q := by
  obtain ⟨a, s', hrun, ha⟩ := hm
  obtain ⟨b, s'', hrun', hb⟩ := hf a s' ha
  refine ⟨b, s'', ?_, hb⟩
  show Prog.bind m f env t s = _
  unfold Prog.bind
  rw [hrun]
  exact hrun'

theorem Finishes.bind_fails (hm : Finishes m env t s t' R) (hf : ∀ a s', R a s'.store → Fails (f a) env t' s') :
    Fails (m >>= f) env t s := by
  obtain ⟨a, s', hrun, ha⟩ := hm
  obtain ⟨e, t'', s'', hrun'⟩ := hf a s' ha
  refine ⟨e, t'', s'', ?_⟩
  show Prog.bind m f env t s = _
  unfold Prog.bind
  rw [hrun]
  exact hrun'

theorem Fails.bind (hm : Fails m env t s) : Fails (m >>= f) env t s := by
  obtain ⟨e, t', s', hrun⟩ := hm
  refine ⟨e, t', s', ?_⟩
  show Prog.bind m f env t s = _
  unfold Prog.bind
  rw [hrun]

theorem Finishes.pure (h : R a s.store) : Finishes (Pure.pure a) env t s t R := ⟨a, s, rfl, h⟩

theorem Finishes.bind_did {act : Did} {f : Unit → Tracking TrackerError β}
    (h : ∀ s', s'.store = s.store → Finishes (f ()) env t s' t' Q) :
    Finishes (did act >>= f) env t s t' Q := h { s with acts := s.acts ++ [act] } rfl

theorem Finishes.bind_lift {x : Except TrackerError α} (hx : x = .ok a) (h : Finishes (f a) env t s t' Q) :
    Finishes (Prog.lift x >>= f) env t s t' Q := by
  subst hx
  exact h

theorem Finishes.bind_ask {g : Reading → α} (h : Finishes (f (g (env t))) env (t + 1) s t' Q) :
    Finishes (Prog.ask g >>= f) env t s t' Q := h

theorem Fails.bind_ask {g : Reading → α} (h : Fails (f (g (env t))) env (t + 1) s) :
    Fails (Prog.ask g >>= f) env t s := h

theorem Fails.bind_lift {x : Except TrackerError α} (hx : x = .ok a) (h : Fails (f a) env t s) :
    Fails (Prog.lift x >>= f) env t s := by
  subst hx
  exact h

theorem Fails.bind_did {act : Did} {f : Unit → Tracking TrackerError β} (h : ∀ s', Fails (f ()) env t s') :
    Fails (did act >>= f) env t s := h { s with acts := s.acts ++ [act] }

theorem Fails.lift {x : Except TrackerError α} {e : TrackerError} (h : x = .error e) :
    Fails (Prog.lift x) env t s := by
  subst h
  exact ⟨e, t, s, rfl⟩

theorem Finishes.recorded (henv : Answers env) {acts : Store → List Did} {run : Store → α × Store}
    (h : R (run s.store).1 (run s.store).2) : Finishes (BlendLiquidator.recorded acts run) env t s (t + 1) R := by
  obtain ⟨u, hu⟩ := henv.store t
  refine ⟨(run s.store).1, executed acts run s, ?_, h⟩
  simp only [BlendLiquidator.recorded, Bind.bind, Prog.bind, Prog.ask, Prog.read, hu]
  rfl

end Runs

section Refresh

variable {env : Nat → Reading} {pool account : String} {snapshot : PoolSnapshot} {valuedAt t : Nat}
  {s : TrackerState} {outcome : RefreshOutcome} {accounts : List String} {tick : LedgerTick}

/-- An account that can be valued has its row written, or deleted. -/
theorem refreshAccount_finishes (henv : Answers env) {row : Option TrackedUser}
    (h : Tracker.refreshedRow pool snapshot valuedAt account = .ok row) :
    Finishes (Tracker.refreshAccount pool snapshot valuedAt outcome account) env t s (t + 1) fun _ store =>
      store = Tracker.rewritten pool account s.store row := by
  unfold Tracker.refreshAccount
  unfold Tracker.refreshedRow at h
  obtain ⟨health, hhealth, hrow⟩ := bind_ok_iff.1 h
  refine Finishes.bind_lift hhealth ?_
  have hdeleted : Finishes (do
      let removed ← recorded
        (fun store => [.row pool account (store.computedAt pool account) snapshot.ledger false])
        fun store => ((store.user pool account).isSome, store.deleteUser pool account)
      pure (if removed then { outcome with removed := outcome.removed + 1 } else outcome)) env t s (t + 1)
      fun _ store => store = s.store.deleteUser pool account :=
    (Finishes.recorded (R := fun _ store => store = s.store.deleteUser pool account) henv rfl).bind
      fun _ _ h => Finishes.pure h
  cases hpositions : snapshot.positions[account]? with
  | none =>
    rw [hpositions] at hrow
    obtain rfl := pure_ok_iff.1 hrow
    exact hdeleted
  | some positions =>
    rw [hpositions] at hrow
    cases health with
    | none =>
      obtain rfl := pure_ok_iff.1 hrow
      exact hdeleted
    | some health =>
      obtain ⟨healthFactor, hscaled, hrow⟩ := bind_ok_iff.1 hrow
      obtain rfl := pure_ok_iff.1 hrow
      refine Finishes.bind_lift hscaled ?_
      exact (Finishes.recorded (R := fun _ store => store = s.store.upsertUser _) henv rfl).bind
        fun _ _ h => Finishes.pure h

/-- One that cannot be valued fails before its row is touched. -/
theorem refreshAccount_fails {e : TrackerError}
    (h : Tracker.refreshedRow pool snapshot valuedAt account = .error e) :
    Fails (Tracker.refreshAccount pool snapshot valuedAt outcome account) env t s := by
  unfold Tracker.refreshAccount
  unfold Tracker.refreshedRow at h
  cases hhealth : Tracker.refreshedHealth snapshot account valuedAt with
  | error e' => exact (Fails.lift rfl).bind
  | ok health =>
    rw [hhealth] at h
    cases hpositions : snapshot.positions[account]? with
    | none =>
      rw [hpositions] at h
      cases h
    | some positions =>
      rw [hpositions] at h
      cases health with
      | none => cases h
      | some health =>
        cases hscaled : (mulFloor health SCALAR_7 snapshot.prices.scalar).mapError TrackerError.math with
        | error e' =>
          refine ⟨e', t, s, ?_⟩
          show Prog.bind (Prog.lift ((mulFloor health SCALAR_7 snapshot.prices.scalar).mapError _)) _ env t s = _
          rw [hscaled]
          rfl
        | ok healthFactor =>
          replace h : (((mulFloor health SCALAR_7 snapshot.prices.scalar).mapError TrackerError.math) >>= _) =
            Except.error e := h
          rw [hscaled] at h
          cases h

/-- The rows of `accounts` as a refresh from `snapshot` leaves them. -/
def Tracker.refreshedStore (pool : String) (snapshot : PoolSnapshot) (valuedAt : Nat) (store : Store)
    (accounts : List String) : Store :=
  accounts.foldl (fun store account => match refreshedRow pool snapshot valuedAt account with
    | .ok row => rewritten pool account store row
    | .error _ => store) store

theorem refreshAccounts_finishes (henv : Answers env)
    (h : ∀ account ∈ accounts, ∃ row, Tracker.refreshedRow pool snapshot valuedAt account = .ok row) :
    Finishes (accounts.foldlM (Tracker.refreshAccount pool snapshot valuedAt) outcome) env t s
      (t + accounts.length) fun _ store =>
        store = Tracker.refreshedStore pool snapshot valuedAt s.store accounts := by
  induction accounts generalizing t s outcome with
  | nil => exact Finishes.pure rfl
  | cons account accounts ih =>
    obtain ⟨row, hrow⟩ := h account List.mem_cons_self
    rw [List.foldlM_cons, List.length_cons, show t + (accounts.length + 1) = t + 1 + accounts.length by omega]
    refine (refreshAccount_finishes henv hrow).bind fun outcome' s' hs' => ?_
    have hrest := @ih (t + 1) s' outcome' fun a ha => h a (List.mem_cons_of_mem _ ha)
    simp only [Tracker.refreshedStore, List.foldl_cons, hrow]
    rw [hs'] at hrest
    exact hrest

theorem refreshAccounts_fails (henv : Answers env)
    (h : ∃ account ∈ accounts, ¬∃ row, Tracker.refreshedRow pool snapshot valuedAt account = .ok row) :
    Fails (accounts.foldlM (Tracker.refreshAccount pool snapshot valuedAt) outcome) env t s := by
  induction accounts generalizing t s outcome with
  | nil =>
    obtain ⟨account, hmem, -⟩ := h
    cases hmem
  | cons account accounts ih =>
    rw [List.foldlM_cons]
    cases hrow : Tracker.refreshedRow pool snapshot valuedAt account with
    | error e => exact (refreshAccount_fails hrow).bind
    | ok row =>
      refine (refreshAccount_finishes henv hrow).bind_fails fun _ _ _ => ih ?_
      obtain ⟨account', hmem, hnot⟩ := h
      rcases List.mem_cons.1 hmem with rfl | hmem
      · exact absurd ⟨row, hrow⟩ hnot
      · exact ⟨account', hmem, hnot⟩

/-! ## A batch -/

/-- Every account of the batch can be valued from the snapshot it is read
with. -/
def BatchValued (env : Nat → Reading) (t : Nat) (pool : String) (tick : LedgerTick) (accounts : List String) :
    Prop :=
  ∀ snapshot, (env t).snapshot = .ok snapshot → ∀ account ∈ accounts, Tracker.Valued pool snapshot tick account

/-- The store after a batch was refreshed and flagged. -/
def batchStore (env : Nat → Reading) (t : Nat) (pool : String) (tick : LedgerTick) (accounts : List String)
    (store : Store) : Store :=
  match (env t).snapshot with
  | .ok snapshot =>
    accounts.foldl (fun store account => store.flagRecheck pool account tick.sequence)
      (Tracker.refreshedStore pool snapshot (snapshot.valuedAt tick.closeTime) store accounts)
  | .error _ => store

/-- The calls of a batch: one snapshot, and a row and a flag for each
account. -/
def batchCalls (accounts : List String) : Nat := if accounts.isEmpty then 0 else 1 + 2 * accounts.length

theorem refresh_finishes (henv : Answers env) (hne : accounts.isEmpty = false)
    (hsnapshot : (env t).snapshot = .ok snapshot)
    (h : ∀ account ∈ accounts, Tracker.Valued pool snapshot tick account) :
    Finishes (Tracker.refresh pool accounts tick) env t s (t + 1 + accounts.length) fun _ store =>
      store = Tracker.refreshedStore pool snapshot (snapshot.valuedAt tick.closeTime) s.store accounts := by
  unfold Tracker.refresh
  rw [hne]
  simp only [Bool.false_eq_true, ↓reduceIte]
  refine Finishes.bind_ask (Finishes.bind_lift (by rw [hsnapshot]; rfl) (Finishes.bind_did fun s₁ hread => ?_))
  refine (refreshAccounts_finishes henv h).bind fun _ s₂ hrows => ?_
  exact Finishes.bind_did fun s₃ hdone => Finishes.pure (by rw [hdone, hrows, hread])

theorem refresh_fails (henv : Answers env) (hsnapshot : (env t).snapshot = .ok snapshot)
    (h : ∃ account ∈ accounts, ¬Tracker.Valued pool snapshot tick account) :
    Fails (Tracker.refresh pool accounts tick) env t s := by
  have hne : accounts.isEmpty = false := by
    obtain ⟨account, hmem, -⟩ := h
    cases accounts with
    | nil => cases hmem
    | cons _ _ => rfl
  unfold Tracker.refresh
  rw [hne]
  simp only [Bool.false_eq_true, ↓reduceIte]
  refine Fails.bind_ask (Fails.bind_lift (by rw [hsnapshot]; rfl) (Fails.bind_did fun s₁ => ?_))
  exact (refreshAccounts_fails henv h).bind

theorem flagAll_finishes (henv : Answers env) {ledger : Nat} :
    Finishes (flagAll pool accounts ledger) env t s (t + accounts.length) fun _ store =>
      store = accounts.foldl (fun store account => store.flagRecheck pool account ledger) s.store := by
  unfold flagAll
  induction accounts generalizing t s with
  | nil => exact Finishes.pure rfl
  | cons account accounts ih =>
    rw [List.foldlM_cons, List.length_cons, show t + (accounts.length + 1) = t + 1 + accounts.length by omega]
    have hflag : Finishes (do
        execute (·.flagRecheck pool account ledger)
        did (.flagged pool account ledger)) env t s (t + 1) fun _ store =>
          store = s.store.flagRecheck pool account ledger :=
      (Finishes.recorded (R := fun _ store => store = s.store.flagRecheck pool account ledger) henv rfl).bind
        fun _ s₁ hs₁ => ⟨(), _, rfl, hs₁⟩
    refine hflag.bind fun _ s₁ hs₁ => ?_
    have hrest := @ih (t + 1) s₁
    rw [hs₁] at hrest
    exact hrest

theorem refreshAndFlag_finishes (henv : Answers env) (h : BatchValued env t pool tick accounts) :
    Finishes (Service.refreshAndFlag pool accounts tick) env t s (t + batchCalls accounts) fun _ store =>
      store = batchStore env t pool tick accounts s.store := by
  obtain ⟨snapshot, hsnapshot⟩ := henv.snapshot t
  unfold batchStore batchCalls
  rw [hsnapshot]
  cases hempty : accounts.isEmpty with
  | true =>
    obtain rfl := List.isEmpty_iff.1 hempty
    exact Finishes.pure rfl
  | false =>
    refine (refresh_finishes henv hempty hsnapshot (h snapshot hsnapshot)).bind fun _ s₁ hs₁ => ?_
    have hflags := @flagAll_finishes env pool (t + 1 + accounts.length) s₁ accounts henv tick.sequence
    rw [hs₁, show t + 1 + accounts.length + accounts.length = t + (1 + 2 * accounts.length) by omega] at hflags
    exact hflags

theorem refreshAndFlag_fails (henv : Answers env) (h : ¬BatchValued env t pool tick accounts) :
    Fails (Service.refreshAndFlag pool accounts tick) env t s := by
  simp only [BatchValued, not_forall] at h
  obtain ⟨snapshot, hsnapshot, account, hmem, hnot⟩ := h
  exact (refresh_fails henv hsnapshot ⟨account, hmem, hnot⟩).bind

end Refresh

/-! ## A tick -/

/-- Once no statement fails, no failure is the store's. -/
theorem recorded_avoids {α : Type} {env : Nat → Reading} (henv : Answers env) {acts : Store → List Did}
    {run : Store → α × Store} : Avoids env (fun e => e.isStore = true) (recorded acts run) := by
  intro t s _ e he
  obtain ⟨a, s', hrun, -⟩ : Finishes (recorded acts run) env t s (t + 1) fun _ _ => True :=
    Finishes.recorded henv trivial
  rw [hrun] at he
  cases he

section Scan

variable {env : Nat → Reading} {c : Service} {pool : String} {tick : LedgerTick} {accounts : List String}

theorem refreshedHealth_avoids {snapshot : PoolSnapshot} {account : String} {valuedAt : Nat} {e : TrackerError}
    (h : Tracker.refreshedHealth snapshot account valuedAt = .error e) : ¬e.isStore = true := by
  unfold Tracker.refreshedHealth at h
  split at h
  · cases hdata : snapshot.positionData account valuedAt with
    | error e' =>
      rw [hdata] at h
      cases h
      simp [TrackerError.isStore]
    | ok data =>
      rw [hdata] at h
      cases data with
      | none => cases h
      | some data =>
        replace h : data.healthFactor.mapError TrackerError.math = .error e := h
        cases hhf : data.healthFactor with
        | error e' =>
          rw [hhf] at h
          cases h
          simp [TrackerError.isStore]
        | ok hf =>
          rw [hhf] at h
          cases h
  · cases h

theorem mapError_avoids {α ε : Type} {x : Except ε α} {f : ε → TrackerError} (hf : ∀ e, (f e).isStore = false)
    (e : TrackerError) (h : x.mapError f = .error e) : ¬e.isStore = true := by
  cases x with
  | error e' =>
    cases h
    simp [hf]
  | ok a => cases h

theorem refresh_avoids (henv : Answers env) :
    Avoids env (fun e => e.isStore = true) (Tracker.refresh pool accounts tick) := by
  unfold Tracker.refresh
  split
  · exact Avoids.pure
  · refine Avoids.ask.bind fun answer => (Avoids.lift (mapError_avoids fun _ => rfl)).bind fun snapshot => ?_
    refine Avoids.modify.bind fun _ => Avoids.bind (Avoids.foldlM fun account outcome => ?_) fun _ =>
      Avoids.modify.bind fun _ => Avoids.pure
    refine (Avoids.lift fun e => refreshedHealth_avoids).bind fun health => ?_
    dsimp only
    split
    · refine (Avoids.lift (mapError_avoids fun _ => rfl)).bind fun _ => ?_
      exact (recorded_avoids henv).bind fun _ => Avoids.pure
    · exact (recorded_avoids henv).bind fun _ => Avoids.pure

theorem seedBatches_avoids (henv : Answers env) {batch left : Nat} {outcome : SeedOutcome} :
    Avoids env (fun e => e.isStore = true) (Tracker.seedBatches pool tick batch left accounts outcome) := by
  induction left generalizing accounts outcome with
  | zero => exact Avoids.pure
  | succ left ih =>
    unfold Tracker.seedBatches
    split
    · exact Avoids.pure
    · refine Avoids.ask.bind fun stopping => ?_
      split
      · exact Avoids.modify.bind fun _ => Avoids.pure
      · exact (refresh_avoids henv).bind fun _ => ih

theorem collect_avoids {sources failed : Nat} {found : BTreeSet String} :
    Avoids env (fun e => e.isStore = true) (Tracker.collect sources found failed) := by
  induction sources generalizing found failed with
  | zero => exact Avoids.pure
  | succ sources ih =>
    refine Avoids.ask.bind fun source => ?_
    cases source with
    | some _ => exact ih
    | none => exact ih

theorem fullScan_avoids (henv : Answers env) :
    Avoids env (fun e => e.isStore = true) (c.fullScan pool tick) := by
  refine (recorded_avoids henv).bind fun _ => (recorded_avoids henv).bind fun _ => Avoids.read.bind fun owed => ?_
  split
  · refine Avoids.bind ?_ fun outcome => (recorded_avoids henv).bind fun _ => ?_
    · refine collect_avoids.bind fun collected => (seedBatches_avoids henv).bind fun outcome => ?_
      exact Avoids.modify.bind fun _ => Avoids.pure
    · unfold Service.settleSeed
      split
      · exact Avoids.modify
      · exact Avoids.pure
  · exact Avoids.pure

/-- The program answers, whenever it is run. -/
def Succeeds {α : Type} (env : Nat → Reading) (m : Tracking TrackerError α) : Prop :=
  ∀ t s, ∃ a t' s', m env t s = (.ok a, t', s')

theorem Succeeds.bind {α β : Type} {m : Tracking TrackerError α} {f : α → Tracking TrackerError β}
    (hm : Succeeds env m) (hf : ∀ a, Succeeds env (f a)) : Succeeds env (m >>= f) := by
  intro t s
  obtain ⟨a, t', s', hrun⟩ := hm t s
  obtain ⟨b, t'', s'', hrun'⟩ := hf a t' s'
  refine ⟨b, t'', s'', ?_⟩
  show Prog.bind m f env t s = _
  unfold Prog.bind
  rw [hrun]
  exact hrun'

/-- A scan whose statements succeed costs no tick. -/
theorem scan_succeeds (henv : Answers env) : Succeeds env (c.scan pool tick) := by
  intro t s
  have htrue : Scanning pool tick fun _ => True :=
    { toFramed := Steady.framed ⟨fun _ _ _ => trivial, fun _ _ _ _ => trivial⟩
      reseeded := fun _ _ => trivial, scanned := fun _ _ _ => trivial }
  have hends : Stays env (fun _ => True) (c.fullScan pool tick) := fullScan_stays htrue.looping
  have havoids : Avoids env (fun e => e.isStore = true) (c.fullScan pool tick) := fullScan_avoids henv
  have hrun := (hends t s trivial).1
  have hnot := havoids t s trivial
  show ∃ a t' s', Prog.bind (Prog.caught (c.fullScan pool tick)) _ env t s = (.ok a, t', s')
  unfold Prog.bind Prog.caught
  generalize c.fullScan pool tick env t s = out at hrun hnot
  obtain ⟨r, t', s'⟩ := out
  cases r with
  | ok a => exact ⟨(), t', _, rfl⟩
  | running => exact absurd rfl hrun
  | err e =>
    cases e with
    | store e => exact absurd rfl (hnot (.store e) rfl)
    | chain e => exact ⟨(), t', _, rfl⟩
    | math e => exact ⟨(), t', _, rfl⟩

/-- What a tick does once it has selected its stale accounts. -/
def Service.applyStale (c : Service) (pool : String) (accounts : List String) (tick : LedgerTick)
    (staleAccounts : List String) : Tracking TrackerError Unit := do
  refreshAndFlag pool staleAccounts tick
  regaugeUsers (!accounts.isEmpty || !staleAccounts.isEmpty)
  let last ← Prog.read fun s => s.loop.lastScan[pool]?
  if scanDue tick.sequence last c.cadence.phase c.cadence.fullScanLedgers then
    c.scan pool tick
  else
    pure ()

/-- Past its second batch, a tick whose calls succeed cannot fail. -/
theorem gaugeAndScan_succeeds (henv : Answers env) {touched : Bool} : Succeeds env (do
    Service.regaugeUsers touched
    let last ← Prog.read fun s => s.loop.lastScan[pool]?
    if scanDue tick.sequence last c.cadence.phase c.cadence.fullScanLedgers then
      c.scan pool tick
    else
      pure ()) := by
  refine Succeeds.bind (fun t s => ?_) fun _ => Succeeds.bind (fun t s => ⟨_, t, s, rfl⟩) fun last => ?_
  · unfold Service.regaugeUsers
    split
    · obtain ⟨a, s', hrun, -⟩ : Finishes glance env t s (t + 1) fun _ _ => True := Finishes.recorded henv trivial
      exact ⟨a, t + 1, s', hrun⟩
    · exact ⟨(), t, s, rfl⟩
  · split
    · exact scan_succeeds henv
    · exact fun t s => ⟨(), t, s, rfl⟩

/-- The stale accounts a tick selects, once its first batch is written. -/
def staleBatch (c : Service) (env : Nat → Reading) (t : Nat) (pool : String) (accounts : List String)
    (tick : LedgerTick) (store : Store) : List String :=
  ((batchStore env t pool tick accounts store).usersStale pool (tick.sequence - c.cadence.userRefreshLedgers)
    c.cadence.refreshBatch).map (·.account)

/-- Every account of the tick's two batches can be valued from the snapshot
its batch is read with. -/
def TickValued (c : Service) (env : Nat → Reading) (t : Nat) (pool : String) (accounts : List String)
    (tick : LedgerTick) (store : Store) : Prop :=
  BatchValued env t pool tick accounts ∧
    BatchValued env (t + batchCalls accounts + 1) pool tick (staleBatch c env t pool accounts tick store)

/-- A tick whose first batch was written goes on to its stale accounts. -/
theorem applyTick_stale (henv : Answers env) {t : Nat} {s : TrackerState}
    (h : BatchValued env t pool tick accounts) : ∃ s', Grown pool tick accounts s s' ∧
      c.applyTick pool accounts tick env t s = c.applyStale pool accounts tick
        (staleBatch c env t pool accounts tick s.store) env (t + batchCalls accounts + 1) s' := by
  obtain ⟨a, s₁, hrun, hstore⟩ := refreshAndFlag_finishes (s := s) henv h
  obtain ⟨u, hu⟩ := henv.store (t + batchCalls accounts)
  have hserves := @refreshAndFlag_serves env pool [] accounts s tick t s Grown.refl a (by rw [hrun])
  rw [hrun] at hserves
  refine ⟨executed (fun _ => []) (fun store => (store.usersStale pool
    (tick.sequence - c.cadence.userRefreshLedgers) c.cadence.refreshBatch, store)) s₁,
    hserves.append Orderly.nil rfl rfl rfl, ?_⟩
  show Prog.bind (Service.refreshAndFlag pool accounts tick) _ env t s = _
  unfold Prog.bind staleBatch
  rw [hrun, ← hstore]
  simp only [statement, recorded, bind, Prog.bind, Prog.ask, Prog.read, hu]
  rfl

/-- Where every call succeeds, a tick answers if and only if every account of
its batches can be valued. -/
theorem applyTick_ok_iff (henv : Answers env) {t : Nat} {s : TrackerState} :
    (c.applyTick pool accounts tick env t s).1 = .ok () ↔ TickValued c env t pool accounts tick s.store := by
  by_cases hpending : BatchValued env t pool tick accounts
  · obtain ⟨s', -, hrun⟩ := applyTick_stale (c := c) (s := s) henv hpending
    rw [hrun]
    by_cases hstale : BatchValued env (t + batchCalls accounts + 1) pool tick
        (staleBatch c env t pool accounts tick s.store)
    · refine ⟨fun _ => ⟨hpending, hstale⟩, fun _ => ?_⟩
      obtain ⟨a, s'', hbatch, -⟩ := refreshAndFlag_finishes (s := s') henv hstale
      have hrest := @gaugeAndScan_succeeds env c pool tick henv (!accounts.isEmpty ||
        !(staleBatch c env t pool accounts tick s.store).isEmpty)
      obtain ⟨u, t', s₃, hgauge⟩ := hrest _ s''
      show (Prog.bind (Service.refreshAndFlag pool _ tick) _ env _ s').1 = _
      unfold Prog.bind
      rw [hbatch]
      show (Prog.bind _ _ env _ s'').1 = _
      exact congrArg Prod.fst hgauge
    · refine ⟨fun h => ?_, fun h => absurd h.2 hstale⟩
      obtain ⟨e, t', s'', hfail⟩ : Fails (c.applyStale pool accounts tick _) env _ s' :=
        (refreshAndFlag_fails henv hstale).bind
      rw [hfail] at h
      cases h
  · refine ⟨fun h => ?_, fun h => absurd h.1 hpending⟩
    obtain ⟨e, t', s'', hfail⟩ : Fails (c.applyTick pool accounts tick) env t s :=
      (refreshAndFlag_fails henv hpending).bind
    rw [hfail] at h
    cases h

end Scan

/-! ## Unpriced reserves -/

theorem accrueInterest_asset {r r' : Reserve} {curUtil : Int} {bstopRate now : Nat}
    (h : r.accrueInterest curUtil bstopRate now = .ok r') : r'.asset = r.asset := by
  simp only [Reserve.accrueInterest, bind_ok_iff] at h
  obtain ⟨⟨accrual, irMod⟩, -, supply, -, liabilities, -, dRate, -, total, -, accrued, -, h⟩ := h
  dsimp only at h
  split at h
  · simp only [bind_ok_iff] at h
    obtain ⟨credit, -, backstop, -, sum, -, after, -, bRate, -, h⟩ := h
    obtain rfl := pure_ok_iff.1 h
    rfl
  · obtain rfl := pure_ok_iff.1 h
    rfl

theorem accrue_asset {r r' : Reserve} {bstopRate now : Nat} (h : r.accrue bstopRate now = .ok r') :
    r'.asset = r.asset := by
  simp only [Reserve.accrue] at h
  split_ifs at h with hsame hbefore hempty
  · obtain rfl := pure_ok_iff.1 h
    rfl
  · cases h
  · cases h
  · obtain rfl := pure_ok_iff.1 h
    rfl
  · obtain ⟨curUtil, -, h⟩ := bind_ok_iff.1 h
    split at h
    · obtain rfl := pure_ok_iff.1 h
      rfl
    · exact accrueInterest_asset h

/-- The accrued reserve at an index is the snapshot's, its asset untouched. -/
theorem accruedReserves_asset {snapshot : PoolSnapshot} {time index : Nat} {accrued : BTreeMap Nat Reserve}
    (h : snapshot.accruedReserves time = .ok accrued) {r : Reserve} (hr : accrued[index]? = some r) :
    ∃ reserve, snapshot.reserves[index]? = some reserve ∧ r.asset = reserve.asset := by
  unfold PoolSnapshot.accruedReserves at h
  -- Each entry of the accrued map comes from an entry of the snapshot's.
  refine foldlM_inv (fun rest acc => (∀ e ∈ rest, snapshot.reserves[e.1]? = some e.2) ∧
    ∀ i r, acc[i]? = some r → ∃ reserve, snapshot.reserves[i]? = some reserve ∧ r.asset = reserve.asset)
    ?_ ⟨fun e he => ?_, fun i r hr => ?_⟩ h |>.2 index r hr
  · rintro e rest acc acc' ⟨hrest, hacc⟩ hstep
    obtain ⟨r', haccrue, hacc'⟩ := bind_ok_iff.1 hstep
    obtain rfl := pure_ok_iff.1 hacc'
    refine ⟨fun e' he' => hrest e' (List.mem_cons_of_mem _ he'), fun i r hr => ?_⟩
    rw [TreeMaps.getElem?_insert] at hr
    split at hr
    · next hi =>
      subst hi
      obtain rfl := Option.some.inj hr
      exact ⟨e.2, hrest e List.mem_cons_self, accrue_asset haccrue⟩
    · exact hacc i r hr
  · exact Std.ExtTreeMap.mem_toList_iff_getElem?_eq_some.1 he
  · simp at hr

/-- The account owes something, and a position of it is in a reserve the
oracle does not price. -/
def HoldsUnpriced (snapshot : PoolSnapshot) (account : String) : Prop :=
  ∃ positions, snapshot.positions[account]? = some positions ∧ positions.liabilities.isEmpty = false ∧
    ∃ (index : Nat) (tokens : Int), tokens ≠ 0 ∧
      (positions.collateral[index]? = some tokens ∨ positions.liabilities[index]? = some tokens) ∧
      ∀ reserve : Reserve, snapshot.reserves[index]? = some reserve →
        snapshot.prices.prices[reserve.asset]? = none

/-- A position in an unpriced reserve has no value. -/
theorem calculatePositionData_priced {reserves : BTreeMap Nat Reserve} {prices : OraclePrices}
    {positions : Positions} {data : PositionData} (h : calculatePositionData reserves prices positions = .ok data)
    {index : Nat} {tokens : Int} (hne : tokens ≠ 0)
    (hpos : positions.collateral[index]? = some tokens ∨ positions.liabilities[index]? = some tokens) :
    ∃ reserve price, reserves[index]? = some reserve ∧ prices.prices[reserve.asset]? = some price := by
  have hpriced : ∀ {reserve : Reserve} {price : Int}, reserveAt reserves index = .ok reserve →
      prices.price reserve.asset = .ok price →
      ∃ reserve price, reserves[index]? = some reserve ∧ prices.prices[reserve.asset]? = some price := by
    intro reserve price hreserve hprice
    unfold reserveAt at hreserve
    unfold OraclePrices.price at hprice
    split at hreserve
    · next r hr =>
      obtain rfl := Except.ok.inj hreserve
      split at hprice
      · next p hp => exact ⟨r, p, hr, hp⟩
      · cases hprice
    · cases hreserve
  obtain ⟨middle, hcollateral, hliabilities⟩ := bind_ok_iff.1 h
  rcases hpos with hpos | hpos
  · obtain ⟨acc, acc', hstep⟩ := foldlM_ok_mem hcollateral (index, tokens)
      (Std.ExtTreeMap.mem_toList_iff_getElem?_eq_some.2 hpos)
    simp only [addCollateral, hne, ↓reduceIte, bind_ok_iff] at hstep
    obtain ⟨reserve, hreserve, price, hprice, -⟩ := hstep
    exact hpriced hreserve hprice
  · obtain ⟨acc, acc', hstep⟩ := foldlM_ok_mem hliabilities (index, tokens)
      (Std.ExtTreeMap.mem_toList_iff_getElem?_eq_some.2 hpos)
    simp only [addLiability, hne, ↓reduceIte, bind_ok_iff] at hstep
    obtain ⟨reserve, hreserve, price, hprice, -⟩ := hstep
    exact hpriced hreserve hprice

/-- An account that holds an unpriced reserve cannot be valued. -/
theorem HoldsUnpriced.not_valued {pool : String} {snapshot : PoolSnapshot} {tick : LedgerTick} {account : String}
    (h : HoldsUnpriced snapshot account) : ¬Tracker.Valued pool snapshot tick account := by
  obtain ⟨positions, hpositions, howes, index, tokens, hne, hpos, hunpriced⟩ := h
  rintro ⟨row, hrow⟩
  obtain ⟨health, hhealth, -⟩ := bind_ok_iff.1 hrow
  have howes' : Tracker.owes snapshot account = true := by
    unfold Tracker.owes
    rw [hpositions]
    simp [howes]
  have hheld : positions.isEmpty = false := by
    unfold Positions.isEmpty
    simp [howes]
  unfold Tracker.refreshedHealth at hhealth
  rw [if_pos howes'] at hhealth
  obtain ⟨data, hdata, -⟩ := bind_ok_iff.1 hhealth
  unfold PoolSnapshot.positionData at hdata
  rw [hpositions] at hdata
  simp only [hheld, Bool.false_eq_true, ↓reduceIte, mapError_ok_iff, bind_ok_iff] at hdata
  obtain ⟨accrued, haccrued, value, hvalue, -⟩ := hdata
  obtain ⟨r, price, hr, hprice⟩ := calculatePositionData_priced hvalue hne hpos
  obtain ⟨reserve, hreserve, hasset⟩ := accruedReserves_asset haccrued hr
  rw [hasset, hunpriced reserve hreserve] at hprice
  cases hprice

/-! ## The tick's promise -/

/-- The account's collateral and debts are all in reserves the snapshot
prices. -/
def NamesPriced (snapshot : PoolSnapshot) (account : String) : Prop :=
  ∀ positions, snapshot.positions[account]? = some positions → ∀ index,
    index ∈ positions.collateral ∨ index ∈ positions.liabilities →
      ∃ (reserve : Reserve) (price : Int), snapshot.reserves[index]? = some reserve ∧
        snapshot.prices.prices[reserve.asset]? = some price

/-- Since `s₀`, a row of each account of the batch that names only priced
reserves was written from the batch's snapshot. -/
def BatchRefreshed (env : Nat → Reading) (t : Nat) (pool : String) (accounts : List String)
    (s₀ s : TrackerState) : Prop :=
  ∃ new, s.acts = s₀.acts ++ new ∧ ∀ snapshot, (env t).snapshot = .ok snapshot → ∀ account ∈ accounts,
    NamesPriced snapshot account → ∃ old kept, .row pool account old snapshot.ledger kept ∈ new

/-- One unpriced reserve does not stall the pool: the tick answers, and has
refreshed every account of its batches that names only priced reserves. -/
structure Unstalled (c : Service) (env : Nat → Reading) (t : Nat) (pool : String) (accounts : List String)
    (tick : LedgerTick) (s : TrackerState) : Prop where
  answers : (c.applyTick pool accounts tick env t s).1 = .ok ()
  pending : BatchRefreshed env t pool accounts s (c.applyTick pool accounts tick env t s).2.2
  stale : BatchRefreshed env (t + batchCalls accounts + 1) pool (staleBatch c env t pool accounts tick s.store) s
    (c.applyTick pool accounts tick env t s).2.2

section Promise

variable {env : Nat → Reading} {c : Service} {pool : String} {tick : LedgerTick} {accounts : List String}
  {t : Nat} {s s₀ s₁ : TrackerState}

theorem BatchRefreshed.extend (h : BatchRefreshed env t pool accounts s₀ s) (hacts : s.acts <+: s₁.acts) :
    BatchRefreshed env t pool accounts s₀ s₁ := by
  obtain ⟨new, hnew, hrows⟩ := h
  obtain ⟨more, hmore⟩ := hacts
  refine ⟨new ++ more, by rw [← hmore, hnew, List.append_assoc], fun snapshot hsnapshot account hmem hpriced => ?_⟩
  obtain ⟨old, kept, hin⟩ := hrows snapshot hsnapshot account hmem hpriced
  exact ⟨old, kept, List.mem_append_left _ hin⟩

theorem BatchRefreshed.after (h : BatchRefreshed env t pool accounts s s₁) (hacts : s₀.acts <+: s.acts) :
    BatchRefreshed env t pool accounts s₀ s₁ := by
  obtain ⟨new, hnew, hrows⟩ := h
  obtain ⟨more, hmore⟩ := hacts
  refine ⟨more ++ new, by rw [hnew, ← hmore, List.append_assoc], fun snapshot hsnapshot account hmem hpriced => ?_⟩
  obtain ⟨old, kept, hin⟩ := hrows snapshot hsnapshot account hmem hpriced
  exact ⟨old, kept, List.mem_append_right _ hin⟩

/-- The record of a tick only grows. -/
theorem scanning_grows : Scanning pool tick fun s => s₀.acts <+: s.acts where
  toFramed := Steady.framed ⟨fun _ _ h => h, fun _ _ _ h => h.trans (List.prefix_append _ _)⟩
  reseeded _ h := h
  scanned _ _ h := h

/-- What a refresh does with the snapshot it read. -/
def Tracker.refreshFrom (pool : String) (accounts : List String) (tick : LedgerTick) (snapshot : PoolSnapshot) :
    Tracking TrackerError RefreshOutcome := do
  did (.read pool accounts tick snapshot)
  let outcome ← accounts.foldlM (refreshAccount pool snapshot (snapshot.valuedAt tick.closeTime)) {}
  did (.refreshed pool accounts)
  pure outcome

theorem refreshFrom_rows {snapshot : PoolSnapshot} :
    Gives env (· = s) (Tracker.refreshFrom pool accounts tick snapshot) fun _ s' =>
      ∃ rows, s'.acts = s.acts ++ rows ∧ HasRows pool snapshot accounts rows := by
  have hread : ∀ s', s' = s → Valuing pool accounts tick snapshot s []
      { s' with acts := s'.acts ++ [.read pool accounts tick snapshot] } := fun s' hs' =>
    ⟨by rw [hs'], [], by simp [hs'], by simp, by simp [HasRows]⟩
  have hrows := @refreshAccounts_rows env pool accounts tick snapshot s (snapshot.valuedAt tick.closeTime) {}
  refine Triple.bind_modify hread (hrows.bind fun outcome => ?_)
  rintro t s' ⟨-, rows, hacts, -, hall⟩ _ -
  refine ⟨.read pool accounts tick snapshot :: rows ++ [.refreshed pool accounts], ?_, fun account hmem => ?_⟩
  · show s'.acts ++ _ = _
    rw [hacts, List.append_assoc, List.cons_append]
  · obtain ⟨old, kept, hin⟩ := hall account hmem
    exact ⟨old, kept, by simp [hin]⟩

/-- A refresh that answered has written each account's row. -/
theorem refresh_refreshed {outcome : RefreshOutcome}
    (h : (Tracker.refresh pool accounts tick env t s).1 = .ok outcome) :
    BatchRefreshed env t pool accounts s (Tracker.refresh pool accounts tick env t s).2.2 := by
  by_cases hempty : accounts.isEmpty = true
  · unfold Tracker.refresh
    rw [if_pos hempty]
    refine ⟨[], by simp [pure, Prog.pure], fun _ _ account hmem => ?_⟩
    rw [List.isEmpty_iff.1 hempty] at hmem
    cases hmem
  · have hrun : ∀ snapshot, (env t).snapshot = .ok snapshot →
        Tracker.refresh pool accounts tick env t s =
          Tracker.refreshFrom pool accounts tick snapshot env (t + 1) s := by
      intro snapshot hsnapshot
      unfold Tracker.refresh
      rw [if_neg hempty]
      simp only [bind, Prog.bind, Prog.ask, Prog.lift, hsnapshot, Except.mapError]
      rfl
    cases hsnapshot : (env t).snapshot with
    | error e =>
      unfold Tracker.refresh at h
      rw [if_neg hempty] at h
      simp only [bind, Prog.bind, Prog.ask, Prog.lift, hsnapshot, Except.mapError] at h
      cases h
    | ok snapshot =>
      rw [hrun snapshot hsnapshot] at h ⊢
      obtain ⟨rows, hacts, hall⟩ := refreshFrom_rows (t + 1) s rfl outcome h
      refine ⟨rows, hacts, fun snapshot' hsnapshot' account hmem _ => ?_⟩
      obtain rfl : snapshot = snapshot' := Except.ok.inj (hsnapshot.symm.trans hsnapshot')
      exact hall account hmem

theorem refreshAndFlag_refreshed {u : Unit} (h : (Service.refreshAndFlag pool accounts tick env t s).1 = .ok u) :
    BatchRefreshed env t pool accounts s (Service.refreshAndFlag pool accounts tick env t s).2.2 := by
  obtain ⟨outcome, t', s', hrefresh, hrun⟩ := bind_answers (m := Tracker.refresh pool accounts tick) h
  have hrows := @refresh_refreshed env pool tick accounts t s outcome (by rw [hrefresh])
  rw [hrefresh] at hrows
  have hflags : Stays env (fun s => s'.acts <+: s.acts) (flagAll pool accounts tick.sequence) :=
    flagAll_stays (@scanning_grows pool tick s').toFramed
  refine hrows.extend ?_
  rw [show Service.refreshAndFlag pool accounts tick env t s = _ from hrun]
  exact (hflags t' s' List.prefix_rfl).2

/-- What follows a tick's second batch only adds to the record. -/
theorem gaugeAndScan_stays {touched : Bool} : Stays env (fun s => s₀.acts <+: s.acts) (do
    Service.regaugeUsers touched
    let last ← Prog.read fun s => s.loop.lastScan[pool]?
    if scanDue tick.sequence last c.cadence.phase c.cadence.fullScanLedgers then
      c.scan pool tick
    else
      pure ()) := by
  have hscanning := @scanning_grows pool tick s₀
  refine (regaugeUsers_stays hscanning.unmoved).bind fun _ => Stays.read.bind fun last => ?_
  split
  · exact scan_stays hscanning.looping
  · exact Stays.pure

theorem applyTick_pending (h : (c.applyTick pool accounts tick env t s).1 = .ok ()) :
    BatchRefreshed env t pool accounts s (c.applyTick pool accounts tick env t s).2.2 := by
  obtain ⟨u, t', s', hbatch, hrun⟩ := bind_answers (m := Service.refreshAndFlag pool accounts tick) h
  have hrows := @refreshAndFlag_refreshed env pool tick accounts t s u (by rw [hbatch])
  rw [hbatch] at hrows
  have hscanning := @scanning_grows pool tick s'
  have hrest : Stays env (fun s => s'.acts <+: s.acts) (do
      let stale ← statement fun store => (store.usersStale pool
        (tick.sequence - c.cadence.userRefreshLedgers) c.cadence.refreshBatch, store)
      c.applyStale pool accounts tick (stale.map (·.account))) :=
    (statement_stays hscanning.unmoved fun _ _ _ => rfl).bind fun _ =>
      (refreshAndFlag_stays hscanning.toFramed).bind fun _ => gaugeAndScan_stays
  refine hrows.extend ?_
  rw [show c.applyTick pool accounts tick env t s = _ from hrun]
  exact (hrest t' s' List.prefix_rfl).2

theorem applyStale_refreshed {stale : List String} (h : (c.applyStale pool accounts tick stale env t s).1 = .ok ()) :
    BatchRefreshed env t pool stale s (c.applyStale pool accounts tick stale env t s).2.2 := by
  obtain ⟨u, t', s', hbatch, hrun⟩ := bind_answers (m := Service.refreshAndFlag pool stale tick) h
  have hrows := @refreshAndFlag_refreshed env pool tick stale t s u (by rw [hbatch])
  rw [hbatch] at hrows
  refine hrows.extend ?_
  rw [show c.applyStale pool accounts tick stale env t s = _ from hrun]
  exact (gaugeAndScan_stays t' s' List.prefix_rfl).2

end Promise

/-- Where every call succeeds, a tick is not stalled if and only if every
account of its two batches can be valued from its batch's snapshot. -/
theorem applyTick_unstalled_iff (c : Service) (env : Nat → Reading) (henv : Answers env) (t : Nat) (pool : String)
    (accounts : List String) (tick : LedgerTick) (s : TrackerState) :
    Unstalled c env t pool accounts tick s ↔ TickValued c env t pool accounts tick s.store := by
  refine ⟨fun h => (applyTick_ok_iff henv).1 h.answers, fun h => ?_⟩
  have hok := (applyTick_ok_iff henv).2 h
  obtain ⟨s', hgrown, hrun⟩ := applyTick_stale (c := c) (s := s) henv h.1
  refine ⟨hok, applyTick_pending hok, ?_⟩
  rw [hrun] at hok ⊢
  obtain ⟨new, hnew, -, -⟩ := hgrown.acts
  exact (applyStale_refreshed hok).after ⟨new, hnew.symm⟩

/-! ## A batch with an unpriced reserve in it -/

/-- Two borrowers: one owes an asset the oracle does not price, the other one
that it does. -/
def unpricedSnapshot : PoolSnapshot where
  ledger := 100
  bstopRate := 0
  reserves := sampleReserves.insert 2 (sampleReserve "BLND" 2 7500000 7500000)
  prices := samplePrices
  positions := (∅ : BTreeMap String Positions)
    |>.insert "ALPHA" { liabilities := (∅ : BTreeMap Nat Int).insert 2 1000 }
    |>.insert "BETA" { collateral := (∅ : BTreeMap Nat Int).insert 1 90000
                       liabilities := (∅ : BTreeMap Nat Int).insert 0 1000 }

def unpricedWorld (_ : Nat) : Reading := { snapshot := .ok unpricedSnapshot }

def sampleTick : LedgerTick := ⟨100, 0⟩

def oneScan : Service where
  cadence := { userRefreshLedgers := 10, refreshBatch := 10, fullScanLedgers := 0, phase := 0 }
  seedSources := 0
  pageLimit := 200

theorem unpricedWorld_answers : Answers unpricedWorld :=
  ⟨fun _ => ⟨unpricedSnapshot, rfl⟩, fun _ => ⟨(), rfl⟩⟩

/-- The first borrower fails the tick and the second, whose reserves are all
priced, keeps no row. -/
theorem applyTick_stalled : Answers unpricedWorld ∧ NamesPriced unpricedSnapshot "BETA" ∧
    ¬Unstalled oneScan unpricedWorld 0 "POOL" ["ALPHA", "BETA"] sampleTick {} := by
  refine ⟨unpricedWorld_answers, fun positions hpositions index hindex => ?_, fun h => ?_⟩
  · obtain rfl : _ = positions := Option.some.inj hpositions
    rcases hindex with hindex | hindex
    · rcases TreeMaps.mem_insert.1 hindex with rfl | hindex
      · exact ⟨_, _, rfl, rfl⟩
      · simp at hindex
    · rcases TreeMaps.mem_insert.1 hindex with rfl | hindex
      · exact ⟨_, _, rfl, rfl⟩
      · simp at hindex
  · have hvalued := (applyTick_ok_iff unpricedWorld_answers).1 h.answers
    have hunpriced : HoldsUnpriced unpricedSnapshot "ALPHA" := by
      refine ⟨_, rfl, rfl, 2, 1000, by decide, .inr rfl, fun reserve hreserve => ?_⟩
      obtain rfl : _ = reserve := Option.some.inj hreserve
      rfl
    exact hunpriced.not_valued (hvalued.1 unpricedSnapshot rfl "ALPHA" List.mem_cons_self)

/-- Alone, the second borrower is refreshed. -/
theorem applyTick_unstalled_priced : Answers unpricedWorld ∧
    Unstalled oneScan unpricedWorld 0 "POOL" ["BETA"] sampleTick {} := by
  refine ⟨unpricedWorld_answers, (applyTick_unstalled_iff oneScan unpricedWorld unpricedWorld_answers 0 "POOL" _ _
    {}).2 ⟨fun snapshot hsnapshot account hmem => ?_, fun snapshot _ account hmem => ?_⟩⟩
  · obtain rfl : _ = snapshot := Except.ok.inj hsnapshot
    obtain rfl := List.mem_singleton.1 hmem
    exact ⟨_, rfl⟩
  · have hnone : staleBatch oneScan unpricedWorld 0 "POOL" ["BETA"] sampleTick {} = [] := by rfl
    rw [hnone] at hmem
    cases hmem

end BlendLiquidator
