/-
What a refresh leaves on the record, and what a tick that applied has done.

A refresh reads one snapshot and writes a row from it for each account, in this
order, however far it comes (`RefreshActs`, the spec of `refresh`). Everything
that works for one tick is put together from refreshes and plain acts, so that
each row on the record has its read before it (`Orderly`); and a tick that
applied has re-read and then flagged each account it was given (`Serves`).
-/
import BlendLiquidator.ServiceFacts
import BlendLiquidator.Traces

namespace BlendLiquidator

open Oracle

/-! ## The record of a refresh -/

/-- A row of one of `accounts`, computed from `snapshot`; it is kept only
where the account owes something. -/
def Did.RowFrom (pool : String) (accounts : List String) (snapshot : PoolSnapshot) : Did → Prop
  | .row p account _ ledger kept => p = pool ∧ account ∈ accounts ∧ ledger = snapshot.ledger ∧
    (kept = true → Tracker.owes snapshot account = true)
  | _ => False

/-- `rows` holds a row of each of `done`. -/
def HasRows (pool : String) (snapshot : PoolSnapshot) (done : List String) (rows : List Did) : Prop :=
  ∀ account ∈ done, ∃ old kept, .row pool account old snapshot.ledger kept ∈ rows

/-- What a refresh leaves on the record, and whether it came to its end. -/
inductive RefreshActs (pool : String) (accounts : List String) (tick : LedgerTick) : List Did → Bool → Prop
  | unread : RefreshActs pool accounts tick [] accounts.isEmpty
  | begun {snapshot rows} : (∀ act ∈ rows, act.RowFrom pool accounts snapshot) →
      RefreshActs pool accounts tick (.read pool accounts tick snapshot :: rows) false
  | done {snapshot rows} : (∀ act ∈ rows, act.RowFrom pool accounts snapshot) →
      HasRows pool snapshot accounts rows →
      RefreshActs pool accounts tick (.read pool accounts tick snapshot :: rows ++ [.refreshed pool accounts]) true

/-- The snapshot was read at `s₀`, and the rows of `done` written. -/
def Valuing (pool : String) (accounts : List String) (tick : LedgerTick) (snapshot : PoolSnapshot)
    (s₀ : TrackerState) (done : List String) (s : TrackerState) : Prop :=
  s.loop = s₀.loop ∧ ∃ rows, s.acts = s₀.acts ++ .read pool accounts tick snapshot :: rows ∧
    (∀ act ∈ rows, act.RowFrom pool accounts snapshot) ∧ HasRows pool snapshot done rows

section Refresh

variable {env : Nat → Reading} {pool account : String} {accounts done : List String} {tick : LedgerTick}
  {snapshot : PoolSnapshot} {s₀ : TrackerState} {valuedAt : Nat} {outcome : RefreshOutcome}

/-- A row more, and what was there before. -/
theorem Valuing.row {s : TrackerState} {old : Option Nat} {kept : Bool} {store : Store}
    (hmem : account ∈ accounts) (hkept : kept = true → Tracker.owes snapshot account = true)
    (h : Valuing pool accounts tick snapshot s₀ done s) :
    Valuing pool accounts tick snapshot s₀ (done ++ [account])
      { s with store := store, acts := s.acts ++ [.row pool account old snapshot.ledger kept] } := by
  obtain ⟨hloop, rows, hacts, hrows, hdone⟩ := h
  refine ⟨hloop, rows ++ [.row pool account old snapshot.ledger kept], by simp [hacts], fun act ha => ?_,
    fun a ha => ?_⟩
  · rcases List.mem_append.1 ha with ha | ha
    · exact hrows act ha
    · rw [List.mem_singleton] at ha
      subst ha
      exact ⟨rfl, hmem, rfl, hkept⟩
  · rcases List.mem_append.1 ha with ha | ha
    · obtain ⟨old', kept', hin⟩ := hdone a ha
      exact ⟨old', kept', List.mem_append_left _ hin⟩
    · rw [List.mem_singleton] at ha
      subst ha
      exact ⟨old, kept, List.mem_append_right _ (List.mem_singleton_self _)⟩

theorem Valuing.of_row {s : TrackerState} (h : Valuing pool accounts tick snapshot s₀ (done ++ [account]) s) :
    Valuing pool accounts tick snapshot s₀ done s := by
  obtain ⟨hloop, rows, hacts, hrows, hdone⟩ := h
  exact ⟨hloop, rows, hacts, hrows, fun a ha => hdone a (List.mem_append_left _ ha)⟩

theorem refreshedHealth_owes {health : Int}
    (h : Tracker.refreshedHealth snapshot account valuedAt = .ok (some health)) :
    Tracker.owes snapshot account = true := by
  unfold Tracker.refreshedHealth at h
  split at h
  · next howes => exact howes
  · cases h

theorem refreshAccount_valuing (hmem : account ∈ accounts) :
    Stays env (Valuing pool accounts tick snapshot s₀ done)
      (Tracker.refreshAccount pool snapshot valuedAt outcome account) := by
  have hrow : ∀ {α : Type} {kept : Bool} {run : Store → α × Store},
      (kept = true → Tracker.owes snapshot account = true) →
      Stays env (Valuing pool accounts tick snapshot s₀ done) (recorded (fun store =>
        [.row pool account (store.computedAt pool account) snapshot.ledger kept]) run) := fun hkept =>
    recorded_stays fun s hs => (hs.row hmem hkept).of_row
  refine Triple.bind_lift (fun health hhealth => ?_) fun e _ s hs => ⟨nofun, hs⟩
  dsimp only
  split
  · exact Stays.lift.bind fun _ => (hrow fun _ => refreshedHealth_owes hhealth).bind fun _ => Stays.pure
  · exact (hrow fun h => by cases h).bind fun _ => Stays.pure

/-- An account a refresh got past has its row on the record. -/
theorem refreshAccount_rows (hmem : account ∈ accounts) :
    Gives env (Valuing pool accounts tick snapshot s₀ done)
      (Tracker.refreshAccount pool snapshot valuedAt outcome account) fun _ =>
        Valuing pool accounts tick snapshot s₀ (done ++ [account]) := by
  have hrow : ∀ {α : Type} {kept : Bool} {run : Store → α × Store},
      (kept = true → Tracker.owes snapshot account = true) →
      Gives env (Valuing pool accounts tick snapshot s₀ done) (recorded (fun store =>
        [.row pool account (store.computedAt pool account) snapshot.ledger kept]) run) fun _ =>
          Valuing pool accounts tick snapshot s₀ (done ++ [account]) := fun hkept =>
    recorded_gives fun s hs => hs.row hmem hkept
  refine Triple.bind_lift (fun health hhealth => ?_) fun e _ s hs _ ha => nomatch ha
  dsimp only
  split
  · exact Gives.after Stays.lift fun _ => (hrow fun _ => refreshedHealth_owes hhealth).bind fun _ =>
      Stays.pure.gives
  · exact (hrow fun h => by cases h).bind fun _ => Stays.pure.gives

theorem refreshAccounts_rows :
    Gives env (Valuing pool accounts tick snapshot s₀ [])
      (accounts.foldlM (Tracker.refreshAccount pool snapshot valuedAt) outcome) fun _ =>
        Valuing pool accounts tick snapshot s₀ accounts := by
  -- What the loop is past is the accounts less the ones left.
  refine (Gives.foldlM (I := fun rest _ s => ∃ done, accounts = done ++ rest ∧
    Valuing pool accounts tick snapshot s₀ done s) fun account rest _ => ?_).conseq
      (fun s hs => ⟨[], rfl, hs⟩) fun _ s hr => ?_
  · refine Triple.ex fun done => Triple.given fun hdone => ?_
    have hmem : account ∈ accounts := by rw [hdone]; simp
    exact (refreshAccount_rows hmem).conseq (fun _ => id) fun _ s hs => ⟨done ++ [account], by simp [hdone], hs⟩
  · obtain ⟨done, hdone, hs⟩ := hr
    rw [List.append_nil] at hdone
    exact hdone ▸ hs

/-- From `s₀` on a refresh has left `RefreshActs`, to the end if it answered. -/
def Refreshing (pool : String) (accounts : List String) (tick : LedgerTick) (s₀ : TrackerState)
    (r : Res TrackerError RefreshOutcome) (s : TrackerState) : Prop :=
  r ≠ .running ∧ s.loop = s₀.loop ∧ ∃ new finished, s.acts = s₀.acts ++ new ∧
    RefreshActs pool accounts tick new finished ∧ ∀ outcome, r = .ok outcome → finished = true

theorem refresh_spec :
    Triple env (· = s₀) (Tracker.refresh pool accounts tick) (Refreshing pool accounts tick s₀) := by
  unfold Tracker.refresh
  split
  · next h =>
    refine Triple.pure fun s hs => ⟨nofun, by rw [hs], [], _, by simp [hs], .unread, fun _ _ => h⟩
  refine Triple.bind_ask fun t => Triple.bind_lift (fun snapshot _ => ?_) fun e _ s hs => ?_
  rotate_left
  · exact ⟨nofun, by rw [hs], [], _, by simp [hs], .unread, nofun⟩
  have hread : ∀ s, s = s₀ → Valuing pool accounts tick snapshot s₀ []
      { s with acts := s.acts ++ [.read pool accounts tick snapshot] } := fun s hs =>
    ⟨by rw [hs], [], by simp [hs], by simp, by simp [HasRows]⟩
  refine Triple.bind_modify hread ?_
  have hstays : Stays env (Valuing pool accounts tick snapshot s₀ [])
      (accounts.foldlM (Tracker.refreshAccount pool snapshot (snapshot.valuedAt tick.closeTime)) {}) :=
    Stays.foldlM fun account hmem outcome => refreshAccount_valuing hmem
  have hrows := hstays.and (@refreshAccounts_rows env pool accounts tick snapshot s₀ _ {})
  refine (hrows.pre fun s hs => ⟨hs, hs⟩).bind (fun outcome => ?_) (fun e s hs => ?_) fun s hs => absurd rfl hs.1.1
  · rintro t s ⟨-, hs⟩
    obtain ⟨hloop, rows, hacts, hrows, hall⟩ := hs outcome rfl
    refine ⟨nofun, hloop, _, _, ?_, .done hrows hall, fun _ _ => rfl⟩
    show s.acts ++ _ = _
    rw [hacts, List.append_assoc, List.cons_append]
  · obtain ⟨⟨-, hloop, rows, hacts, hrows, -⟩, -⟩ := hs
    exact ⟨nofun, hloop, _, _, hacts, .begun hrows, nofun⟩

end Refresh

/-! ## Working for one tick -/

/-- Inner acts for one tick, each row after the read it is computed from. -/
structure Orderly (pool : String) (tick : LedgerTick) (new : List Did) : Prop where
  inner : ∀ act ∈ new, act.Inner pool
  rows : ∀ {before account old ledger kept after}, new = before ++ .row pool account old ledger kept :: after →
    ∃ accounts snapshot, .read pool accounts tick snapshot ∈ before ∧ account ∈ accounts ∧
      snapshot.ledger = ledger

section Orderly

variable {pool : String} {tick : LedgerTick} {accounts : List String} {l m : List Did} {act : Did}

theorem Orderly.nil : Orderly pool tick [] := ⟨by simp, by simp⟩

theorem Orderly.append (h : Orderly pool tick l) (h' : Orderly pool tick m) : Orderly pool tick (l ++ m) := by
  refine ⟨fun act ha => ?_, fun heq => ?_⟩
  · rcases List.mem_append.1 ha with ha | ha
    · exact h.inner act ha
    · exact h'.inner act ha
  · rcases Traces.append_eq_split heq with ⟨after', hl, -⟩ | ⟨before', rfl, hm⟩
    · exact h.rows hl
    · obtain ⟨accounts, snapshot, hread, hmem, hledger⟩ := h'.rows hm
      exact ⟨accounts, snapshot, List.mem_append_right _ hread, hmem, hledger⟩

theorem Orderly.single (hinner : act.Inner pool)
    (hrow : ∀ account old ledger kept, act ≠ .row pool account old ledger kept) :
    Orderly pool tick [act] := by
  refine ⟨fun a ha => List.mem_singleton.1 ha ▸ hinner, fun {before account old ledger kept after} heq => ?_⟩
  have hmem : Did.row pool account old ledger kept ∈ [act] := by rw [heq]; simp
  exact absurd (List.mem_singleton.1 hmem).symm (hrow account old ledger kept)

theorem Orderly.plain (h : act.Plain pool) : Orderly pool tick [act] :=
  Orderly.single h.inner fun _ _ _ _ heq => by
    subst heq
    exact h

theorem Did.RowFrom.inner {snapshot : PoolSnapshot} (h : act.RowFrom pool accounts snapshot) : act.Inner pool := by
  cases act with
  | row => exact h.1
  | event | tick | gap | read | refreshed | flagged | stopped | seeded => exact h.elim

theorem orderly_begun {snapshot : PoolSnapshot} {rows : List Did}
    (hrows : ∀ act ∈ rows, act.RowFrom pool accounts snapshot) :
    Orderly pool tick (.read pool accounts tick snapshot :: rows) := by
  refine ⟨fun act ha => ?_, fun {before account old ledger kept after} heq => ?_⟩
  · rcases List.mem_cons.1 ha with rfl | ha
    · rfl
    · exact (hrows act ha).inner
  · rcases List.cons_eq_append_iff.1 heq with ⟨-, hrest⟩ | ⟨before', rfl, hrest⟩
    · cases hrest
    · obtain ⟨-, hmem, hledger, -⟩ := hrows (.row pool account old ledger kept) (by rw [hrest]; simp)
      exact ⟨accounts, snapshot, List.mem_cons_self, hmem, hledger.symm⟩

theorem RefreshActs.orderly {finished : Bool} (h : RefreshActs pool accounts tick l finished) :
    Orderly pool tick l := by
  cases h with
  | unread => exact Orderly.nil
  | begun hrows => exact orderly_begun hrows
  | done hrows _ => exact (orderly_begun hrows).append (Orderly.single (by rfl) nofun)

end Orderly

/-- The account was re-read, its row written, and flagged after that. -/
def Serves (pool account : String) (acts : List Did) : Prop :=
  ∃ before accounts tick snapshot rows old kept after ledger,
    acts = before ++ (.read pool accounts tick snapshot :: rows ++ [.refreshed pool accounts]) ++ after ∧
    account ∈ accounts ∧ .row pool account old snapshot.ledger kept ∈ rows ∧
    .flagged pool account ledger ∈ after

section Serves

variable {pool account : String} {l m : List Did}

theorem Serves.append_right (h : Serves pool account l) : Serves pool account (l ++ m) := by
  obtain ⟨before, accounts, tick, snapshot, rows, old, kept, after, ledger, rfl, hmem, hrow, hflag⟩ := h
  exact ⟨before, accounts, tick, snapshot, rows, old, kept, after ++ m, ledger, by simp, hmem, hrow,
    List.mem_append_left _ hflag⟩

theorem Serves.append_left (h : Serves pool account m) : Serves pool account (l ++ m) := by
  obtain ⟨before, accounts, tick, snapshot, rows, old, kept, after, ledger, rfl, hmem, hrow, hflag⟩ := h
  exact ⟨l ++ before, accounts, tick, snapshot, rows, old, kept, after, ledger, by simp, hmem, hrow, hflag⟩

/-- A served account has a row. -/
theorem Serves.row (h : Serves pool account l) : ∃ old ledger kept, .row pool account old ledger kept ∈ l := by
  obtain ⟨before, accounts, tick, snapshot, rows, old, kept, after, ledger, rfl, -, hrow, -⟩ := h
  exact ⟨old, snapshot.ledger, kept, by simp [hrow]⟩

end Serves

/-- Since `s₀` only acts for `tick` were done, they serve `served`, and what
waits and what is marked are as they were. -/
structure Grown (pool : String) (tick : LedgerTick) (served : List String) (s₀ s : TrackerState) : Prop where
  acts : ∃ new, s.acts = s₀.acts ++ new ∧ Orderly pool tick new ∧ ∀ account ∈ served, Serves pool account new
  pending : s.loop.pending = s₀.loop.pending
  unapplied : s.loop.unapplied = s₀.loop.unapplied

section Serving

variable {env : Nat → Reading} {pool : String} {served accounts : List String} {s₀ s : TrackerState}
  {tick : LedgerTick}

theorem Grown.refl : Grown pool tick [] s₀ s₀ := ⟨⟨[], by simp, Orderly.nil, by simp⟩, rfl, rfl⟩

theorem Grown.append {s' : TrackerState} {l : List Did} (h : Grown pool tick served s₀ s) (hl : Orderly pool tick l)
    (hacts : s'.acts = s.acts ++ l) (hp : s'.loop.pending = s.loop.pending)
    (hu : s'.loop.unapplied = s.loop.unapplied) : Grown pool tick served s₀ s' := by
  obtain ⟨⟨new, hnew, horderly, hserved⟩, hp₀, hu₀⟩ := h
  refine ⟨⟨new ++ l, ?_, horderly.append hl, fun account ha => (hserved account ha).append_right⟩,
    hp.trans hp₀, hu.trans hu₀⟩
  rw [hacts, hnew, List.append_assoc]

theorem Grown.scanning : Scanning pool tick (Grown pool tick served s₀) where
  unmoved _ _ _ h := ⟨h.acts, h.pending, h.unapplied⟩
  refresh env accounts := by
    intro t s hs
    obtain ⟨hrun, hloop, new, finished, hacts, hnew, -⟩ := refresh_spec t s rfl
    exact ⟨hrun, hs.append hnew.orderly hacts (by rw [hloop]) (by rw [hloop])⟩
  act s act hact h := h.append (Orderly.plain hact) rfl rfl rfl
  reseeded _ h := ⟨h.acts, h.pending, h.unapplied⟩
  scanned _ _ h := ⟨h.acts, h.pending, h.unapplied⟩

/-- The flags of `done` are among the acts that came after `base`. -/
def Flagged (pool : String) (ledger : Nat) (base : List Did) (done : List String) (s : TrackerState) : Prop :=
  ∃ new, s.acts = base ++ new ∧ ∀ account ∈ done, .flagged pool account ledger ∈ new

/-- One flag more. -/
theorem flag_flags {base : List Did} {ledger : Nat} {done : List String} {account : String} :
    Gives env (Flagged pool ledger base done) (do
      execute (·.flagRecheck pool account ledger)
      did (.flagged pool account ledger)) fun _ => Flagged pool ledger base (done ++ [account]) := by
  have hunmoved : Unmoved (Flagged pool ledger base done) := fun _ _ _ h => h
  refine Gives.after (execute_stays hunmoved fun _ _ _ => Store.computedAt_flagRecheck) fun _ => ?_
  rintro t s ⟨new, hacts, hflag⟩ _ -
  refine ⟨new ++ [.flagged pool account ledger], ?_, fun a ha => ?_⟩
  · show s.acts ++ _ = _
    rw [hacts, List.append_assoc]
  · rcases List.mem_append.1 ha with ha | ha
    · exact List.mem_append_left _ (hflag a ha)
    · rw [List.mem_singleton] at ha
      subst ha
      exact List.mem_append_right _ (List.mem_singleton_self _)

/-- The loop of flags ends with each account flagged. -/
theorem flagAll_flags {base : List Did} {ledger : Nat} :
    Gives env (Flagged pool ledger base []) (flagAll pool accounts ledger) fun _ =>
      Flagged pool ledger base accounts := by
  refine (Gives.foldlM (I := fun rest _ s => ∃ done, accounts = done ++ rest ∧ Flagged pool ledger base done s)
    fun account rest _ => ?_).conseq (fun s hs => ⟨[], rfl, hs⟩) fun _ s hr => ?_
  · refine Triple.ex fun done => Triple.given fun hdone => ?_
    exact flag_flags.conseq (fun _ => id) fun _ s hs => ⟨done ++ [account], by simp [hdone], hs⟩
  · obtain ⟨done, hdone, hs⟩ := hr
    rw [List.append_nil] at hdone
    exact hdone ▸ hs

/-- A refresh that answered came to its end. -/
theorem RefreshActs.finished {new : List Did} {finished : Bool} (h : RefreshActs pool accounts tick new finished)
    (hfinished : finished = true) : accounts = [] ∨ ∃ snapshot rows, HasRows pool snapshot accounts rows ∧
      new = .read pool accounts tick snapshot :: rows ++ [.refreshed pool accounts] := by
  cases h with
  | unread => exact .inl (List.isEmpty_iff.1 hfinished)
  | begun _ => cases hfinished
  | done _ hall => exact .inr ⟨_, _, hall, rfl⟩

/-- Re-read, then flagged: each account is served. -/
theorem refreshAndFlag_shape (s₀ : TrackerState) :
    Gives env (· = s₀) (Service.refreshAndFlag pool accounts tick) fun _ s =>
      ∃ new, s.acts = s₀.acts ++ new ∧ ∀ account ∈ accounts, Serves pool account new := by
  have hrefresh : Gives env (· = s₀) (Tracker.refresh pool accounts tick) fun _ s =>
      ∃ new, RefreshActs pool accounts tick new true ∧ s.acts = s₀.acts ++ new := by
    refine refresh_spec.conseq (fun _ => id) fun r s hs a ha => ?_
    obtain ⟨-, -, new, finished, hacts, hnew, hfinished⟩ := hs
    obtain rfl := hfinished a ha
    exact ⟨new, hnew, hacts⟩
  refine hrefresh.bind fun _ => Triple.ex fun new => Triple.given fun hnew => ?_
  refine (@flagAll_flags env pool accounts (s₀.acts ++ new) tick.sequence).conseq
    (fun s hs => ⟨[], by rw [List.append_nil, hs], by simp⟩) fun _ s hs => ?_
  obtain ⟨flags, hacts, hflags⟩ := hs
  refine ⟨new ++ flags, by rw [hacts, List.append_assoc], fun account ha => ?_⟩
  rcases hnew.finished rfl with rfl | ⟨snapshot, rows, hall, rfl⟩
  · cases ha
  · obtain ⟨old, kept, hrow⟩ := hall account ha
    exact ⟨[], accounts, tick, snapshot, rows, old, kept, flags, tick.sequence, rfl, ha, hrow, hflags account ha⟩

theorem refreshAndFlag_serves :
    Gives env (Grown pool tick served s₀) (Service.refreshAndFlag pool accounts tick) fun _ =>
      Grown pool tick (served ++ accounts) s₀ := by
  intro t s hs a ha
  have hstays : Stays env (Grown pool tick [] s) (Service.refreshAndFlag pool accounts tick) :=
    refreshAndFlag_stays Grown.scanning.toFramed
  have hgrown := (hstays t s Grown.refl).2
  obtain ⟨new, hnew, hserves⟩ := refreshAndFlag_shape s t s rfl a ha
  obtain ⟨⟨new', hnew', horderly, -⟩, hp, hu⟩ := hgrown
  obtain rfl := List.append_cancel_left (hnew.symm.trans hnew')
  obtain ⟨⟨first, hfirst, horderly', hserved⟩, hp', hu'⟩ := hs
  refine ⟨⟨first ++ new, by rw [hnew, hfirst, List.append_assoc], horderly'.append horderly, fun account hmem => ?_⟩,
    hp.trans hp', hu.trans hu'⟩
  rcases List.mem_append.1 hmem with hmem | hmem
  · exact (hserved account hmem).append_right
  · exact (hserves account hmem).append_left

/-- A tick that applied has served the accounts it was given. -/
theorem applyTick_serves {c : Service} :
    Gives env (Grown pool tick [] s₀) (c.applyTick pool accounts tick) fun _ =>
      Grown pool tick accounts s₀ := by
  refine (@refreshAndFlag_serves env pool [] accounts s₀ tick).bind fun _ => ?_
  -- The rest of the tick only adds to the record.
  have hgrown := @Grown.scanning pool accounts s₀ tick
  refine Gives.after (statement_stays hgrown.unmoved fun _ _ _ => rfl) fun stale => ?_
  refine Gives.after (refreshAndFlag_stays hgrown.toFramed) fun _ => ?_
  refine Gives.after (regaugeUsers_stays hgrown.unmoved) fun _ => Gives.after Stays.read fun last => ?_
  split
  · exact (scan_stays hgrown.looping).gives
  · exact Stays.pure.gives

end Serving

end BlendLiquidator
