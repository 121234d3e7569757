/-
How old the users rows may be.

A refresh takes whatever snapshot it is given: it compares the snapshot's
ledger neither with the events that made it re-read an account nor with the row
it replaces. So a row is as new as what is behind it exactly as far as the
snapshots are (`FreshRead`). What is proved of the code is that nothing else
can make a row old: the row of an account is always the last on the record
(`Standing`), each row on the record is computed from the snapshot its own
refresh read (`RowsRead`), and by the time a tick is answered each account its
pass named was re-read for that tick.
-/
import BlendLiquidator.Acknowledged

namespace BlendLiquidator

open Calls Oracle

/-! ## The row the record leaves -/

/-- What an act makes of the ledger an account's row was computed at. -/
def Did.rowAt (pool account : String) (standing : Option Nat) : Did → Option Nat
  | .row p a _ ledger kept => if p = pool ∧ a = account then if kept then some ledger else none else standing
  | _ => standing

/-- The ledger of an account's row after `acts`. -/
def standing (pool account : String) (start : Option Nat) (acts : List Did) : Option Nat :=
  acts.foldl (Did.rowAt pool account) start

/-- From `s₀` to `s` the rows are what the record says, and each row on it
names the one it replaced. -/
def Standing (s₀ s : TrackerState) : Prop :=
  ∃ new, s.acts = s₀.acts ++ new ∧
    (∀ p a, s.store.computedAt p a = standing p a (s₀.store.computedAt p a) new) ∧
    ∀ {before p a old ledger kept after}, new = before ++ .row p a old ledger kept :: after →
      old = standing p a (s₀.store.computedAt p a) before

section Standing

variable {s₀ s s' : TrackerState} {pool account : String} {act : Did} {start : Option Nat} {l m : List Did}

theorem standing_append : standing pool account start (l ++ m) =
    standing pool account (standing pool account start l) m := List.foldl_append

theorem Standing.refl : Standing s s := ⟨[], by simp, fun _ _ => rfl, by simp⟩

theorem Standing.trans (h : Standing s₀ s) (h' : Standing s s') : Standing s₀ s' := by
  obtain ⟨new, hacts, hrow, hold⟩ := h
  obtain ⟨new', hacts', hrow', hold'⟩ := h'
  refine ⟨new ++ new', by rw [hacts', hacts, List.append_assoc], fun p a => ?_, fun heq => ?_⟩
  · rw [hrow' p a, hrow p a, standing_append]
  · rcases Traces.append_eq_split heq with ⟨after', hnew, -⟩ | ⟨before', rfl, hnew⟩
    · exact hold hnew
    · rw [hold' hnew, hrow, standing_append]

/-- An act that is no row. -/
theorem Standing.did (hact : ∀ p a old ledger kept, act ≠ .row p a old ledger kept) :
    Standing s { s with acts := s.acts ++ [act] } := by
  refine ⟨[act], rfl, fun p a => ?_, fun {before p a old ledger kept after} heq => ?_⟩
  · cases act with
    | row p' a' old ledger kept => exact absurd rfl (hact p' a' old ledger kept)
    | event | tick | gap | read | refreshed | flagged | stopped | seeded => rfl
  · have hmem : Did.row p a old ledger kept ∈ [act] := by rw [heq]; simp
    exact absurd (List.mem_singleton.1 hmem).symm (hact p a old ledger kept)

theorem Standing.gapped : Standing s (gapped pool s) := by
  refine ⟨[.gap pool], rfl, fun p a => rfl, fun {before p a old ledger kept after} heq => ?_⟩
  have hmem : Did.row p a old ledger kept ∈ [Did.gap pool] := by rw [heq]; simp
  simp at hmem

/-- A change of the store that moves no row. -/
theorem Standing.unmoved : Unmoved (Standing s₀) := by
  rintro s store hsame ⟨new, hacts, hrow, hold⟩
  exact ⟨new, hacts, fun p a => (hsame p a).trans (hrow p a), hold⟩

/-- A row written, or deleted. -/
theorem Standing.row {store : Store} {ledger : Nat} {kept : Bool}
    (hstore : ∀ p a, store.computedAt p a =
      if p = pool ∧ a = account then if kept then some ledger else none else s.store.computedAt p a) :
    Standing s { s with
      store := store
      acts := s.acts ++ [.row pool account (s.store.computedAt pool account) ledger kept] } := by
  refine ⟨[.row pool account (s.store.computedAt pool account) ledger kept], rfl, fun p a => ?_,
    fun {before p a old ledger' kept' after} heq => ?_⟩
  · rw [hstore p a]
    show _ = if pool = p ∧ account = a then _ else _
    simp only [eq_comm]
  · rcases List.cons_eq_append_iff.1 heq with ⟨rfl, hrest⟩ | ⟨before', -, hrest⟩
    · cases hrest
      rfl
    · simp at hrest

end Standing

section Frame

variable {env : Nat → Reading} {c : Service} {s₀ : TrackerState} {pool account : String} {tick : LedgerTick}
  {accounts : List String}

theorem refreshAccount_standing {snapshot : PoolSnapshot} {valuedAt : Nat} {outcome : RefreshOutcome} :
    Stays env (Standing s₀) (Tracker.refreshAccount pool snapshot valuedAt outcome account) := by
  refine Stays.lift.bind fun health => ?_
  dsimp only
  split
  · refine Stays.lift.bind fun _ => (recorded_stays fun s hs => hs.trans (Standing.row fun p a => ?_)).bind fun _ =>
      Stays.pure
    rw [Store.computedAt_upsertUser]
    simp only [Prod.mk.injEq, if_true]
  · refine (recorded_stays fun s hs => hs.trans (Standing.row fun p a => ?_)).bind fun _ => Stays.pure
    rw [Store.computedAt_deleteUser]
    simp only [Prod.mk.injEq, Bool.false_eq_true, if_false]

theorem Standing.scanning : Scanning pool tick (Standing s₀) where
  unmoved := Standing.unmoved
  refresh env accounts := by
    unfold Tracker.refresh
    split
    · exact Stays.pure
    · refine Stays.ask.bind fun answer => Stays.lift.bind fun snapshot => ?_
      refine (did_stays fun _ hs => hs.trans (Standing.did nofun)).bind fun _ => ?_
      refine (Stays.foldlM fun _ _ _ => refreshAccount_standing).bind fun _ => ?_
      exact (did_stays fun _ hs => hs.trans (Standing.did nofun)).bind fun _ => Stays.pure
  act s act hact h := h.trans <| Standing.did fun _ _ _ _ _ heq => by
    subst heq
    exact hact
  reseeded _ h := h
  scanned _ _ h := h

theorem handleMessage_standing {pass : Nat} {message : PollerMessage} :
    Stays env (Standing s₀) (c.handleMessage pass message) :=
  handleMessage_stays {
    looping := fun _ => Standing.scanning.looping
    extended := fun _ _ h => h
    marked := fun _ h => h
    taken := fun _ h => h
    gapped := fun _ h => h.trans Standing.gapped
    ends := fun _ _ hends h => h.trans <| Standing.did fun _ _ _ _ _ heq => by
      subst heq
      exact hends
    published := fun _ _ h => h }

end Frame

/-! ## The read behind a row -/

/-- Each row on the record comes right after the read it is computed from, but
for rows computed from the same read. -/
structure RowsRead (acts : List Did) : Prop where
  read : ∀ {before p a old ledger kept after}, acts = before ++ .row p a old ledger kept :: after →
    ∃ earlier accounts tick snapshot rows, before = earlier ++ .read p accounts tick snapshot :: rows ∧
      a ∈ accounts ∧ snapshot.ledger = ledger ∧ (kept = true → Tracker.owes snapshot a = true) ∧
      ∀ act ∈ rows, act.RowFrom p accounts snapshot

section RowsRead

variable {env : Nat → Reading} {c : Service} {pool : String} {accounts : List String} {tick : LedgerTick}
  {l m : List Did} {act : Did}

theorem RowsRead.append (h : RowsRead l) (h' : RowsRead m) : RowsRead (l ++ m) := by
  refine ⟨fun heq => ?_⟩
  rcases Traces.append_eq_split heq with ⟨after', hl, -⟩ | ⟨before', rfl, hm⟩
  · exact h.read hl
  · obtain ⟨earlier, accounts, tick, snapshot, rows, rfl, hrest⟩ := h'.read hm
    exact ⟨l ++ earlier, accounts, tick, snapshot, rows, by simp, hrest⟩

theorem RowsRead.single (hact : ∀ p a old ledger kept, act ≠ .row p a old ledger kept) : RowsRead [act] := by
  refine ⟨fun {before p a old ledger kept after} heq => ?_⟩
  have hmem : Did.row p a old ledger kept ∈ [act] := by rw [heq]; simp
  exact absurd (List.mem_singleton.1 hmem).symm (hact p a old ledger kept)

theorem rowsRead_begun {snapshot : PoolSnapshot} {rows : List Did}
    (hrows : ∀ act ∈ rows, act.RowFrom pool accounts snapshot) :
    RowsRead (.read pool accounts tick snapshot :: rows) := by
  refine ⟨fun {before p a old ledger kept after} heq => ?_⟩
  rcases List.cons_eq_append_iff.1 heq with ⟨-, hrest⟩ | ⟨before', rfl, hrest⟩
  · cases hrest
  · obtain ⟨rfl, hmem, hledger, hkept⟩ := hrows (.row p a old ledger kept) (by rw [hrest]; simp)
    refine ⟨[], accounts, tick, snapshot, before', rfl, hmem, hledger.symm, hkept, fun act ha => hrows act ?_⟩
    rw [hrest]
    exact List.mem_append_left _ ha

theorem RefreshActs.rowsRead {finished : Bool} (h : RefreshActs pool accounts tick l finished) : RowsRead l := by
  cases h with
  | unread => exact ⟨fun heq => by simp at heq⟩
  | begun hrows => exact rowsRead_begun hrows
  | done hrows _ => exact (rowsRead_begun hrows).append (RowsRead.single nofun)

theorem rowsRead_scanning : Scanning pool tick fun s => RowsRead s.acts where
  unmoved _ _ _ h := h
  refresh env accounts := by
    intro t s hs
    obtain ⟨hrun, -, new, finished, hacts, hnew, -⟩ := @refresh_spec env pool accounts tick s t s rfl
    have hread : RowsRead (s.acts ++ new) := hs.append hnew.rowsRead
    exact ⟨hrun, (congrArg RowsRead hacts).mpr hread⟩
  act s act hact h := h.append <| RowsRead.single fun _ _ _ _ _ heq => by
    subst heq
    exact hact
  reseeded _ h := h
  scanned _ _ h := h

theorem handleMessage_rowsRead {pass : Nat} {message : PollerMessage} :
    Stays env (fun s => RowsRead s.acts) (c.handleMessage pass message) :=
  handleMessage_stays {
    looping := fun _ => rowsRead_scanning.looping
    extended := fun _ _ h => h
    marked := fun _ h => h
    taken := fun _ h => h
    gapped := fun _ h => h.append (RowsRead.single (by exact nofun))
    ends := fun _ _ hends h => h.append <| RowsRead.single fun _ _ _ _ _ heq => by
      subst heq
      exact hends
    published := fun _ _ h => h }

end RowsRead

/-! ## Fresh snapshots -/

/-- A tick of the pool that was answered has reached `ledger`. -/
def AnsweredUpTo (pool : String) (ledger : Nat) (acts : List Did) : Prop :=
  ∃ pass tick, .tick pool pass tick true true ∈ acts ∧ ledger ≤ tick.sequence

/-- A snapshot is as new, for each account it is read for, as the account's
applied events up to the refresh's own tick or an answered one, and, where the
account owes something, as the row it replaces. -/
def FreshRead (start : Store) (before : List Did) : Did → Prop
  | .read pool accounts tick snapshot => ∀ account ∈ accounts,
      (∀ pass ledger event, .event pool pass ledger event true ∈ before → account ∈ event.affectedAccounts →
        ledger ≤ tick.sequence ∨ AnsweredUpTo pool ledger before → ledger ≤ snapshot.ledger) ∧
      (Tracker.owes snapshot account = true → ∀ old,
        standing pool account (start.computedAt pool account) before = some old → old ≤ snapshot.ledger)
  | _ => True

/-- Every read on the record is fresh. -/
def ReadsFresh (start : Store) (acts : List Did) : Prop := Traces.Before (fun _ => True) (FreshRead start) acts

/-- Rows computed from one snapshot leave no newer row than it, if there was
none. -/
theorem standing_rowFrom {p a : String} {accounts : List String} {snapshot : PoolSnapshot} {rows : List Did}
    {at₀ : Option Nat} (hrows : ∀ act ∈ rows, act.RowFrom p accounts snapshot)
    (h₀ : ∀ old, at₀ = some old → old ≤ snapshot.ledger) :
    ∀ old, standing p a at₀ rows = some old → old ≤ snapshot.ledger := by
  induction rows generalizing at₀ with
  | nil => exact h₀
  | cons act rows ih =>
    refine ih (fun act' ha => hrows act' (List.mem_cons_of_mem _ ha)) fun old hold => ?_
    have hrow := hrows act List.mem_cons_self
    cases act with
    | row p' a' old' ledger kept =>
      obtain ⟨-, -, rfl, -⟩ := hrow
      unfold Did.rowAt at hold
      dsimp only at hold
      split at hold
      · split at hold
        · cases hold
          exact le_rfl
        · cases hold
      · exact h₀ old hold
    | event | tick | gap | read | refreshed | flagged | stopped | seeded => exact hrow.elim

/-- A row that replaces another is no older. -/
theorem ReadsFresh.row_le {start : Store} {acts before after : List Did} {p a : String} {old ledger : Nat}
    (hfresh : ReadsFresh start acts) (hreads : RowsRead acts)
    (heq : acts = before ++ .row p a (some old) ledger true :: after)
    (hold : some old = standing p a (start.computedAt p a) before) : old ≤ ledger := by
  obtain ⟨earlier, accounts, tick, snapshot, rows, rfl, hmem, rfl, howes, hrows⟩ := hreads.read heq
  have hread := hfresh earlier (.read p accounts tick snapshot) (rows ++ .row p a (some old) snapshot.ledger true :: after)
    (by rw [heq]; simp) trivial
  have hbefore := (hread a hmem).2 (howes rfl)
  rw [standing_append] at hold
  exact standing_rowFrom hrows hbefore old hold.symm

/-! ## The last row -/

/-- A row of the account, written or deleted. -/
def Did.IsRow (pool account : String) : Did → Prop
  | .row p a _ _ _ => p = pool ∧ a = account
  | _ => False

section LastRow

variable {p a : String} {start : Option Nat} {l : List Did}

theorem standing_quiet (h : ∀ act ∈ l, ¬act.IsRow p a) : standing p a start l = start := by
  induction l generalizing start with
  | nil => rfl
  | cons act l ih =>
    refine (ih fun act' ha => h act' (List.mem_cons_of_mem _ ha)).trans ?_
    have hact := h act List.mem_cons_self
    cases act with
    | row => exact if_neg hact
    | event | tick | gap | read | refreshed | flagged | stopped | seeded => rfl

/-- The row the last one on the record leaves. -/
theorem standing_last {before after : List Did} {old : Option Nat} {ledger : Nat} {kept : Bool}
    (h : ∀ act ∈ after, ¬act.IsRow p a) :
    standing p a start (before ++ .row p a old ledger kept :: after) = if kept then some ledger else none := by
  rw [standing_append]
  exact (standing_quiet h).trans (if_pos ⟨rfl, rfl⟩)

/-- Rows that are kept, each no older than the one it replaces. -/
theorem standing_le {u : Nat} (hkept : ∀ old ledger, .row p a old ledger false ∉ l)
    (hrow : ∀ before old ledger kept after, l = before ++ .row p a old ledger kept :: after →
      old = standing p a (some u) before ∧ (kept = true → ∀ u', old = some u' → u' ≤ ledger)) :
    ∃ u', standing p a (some u) l = some u' ∧ u ≤ u' := by
  induction l using List.reverseRecOn with
  | nil => exact ⟨u, rfl, le_rfl⟩
  | append_singleton l act ih =>
    obtain ⟨u', hu', hle⟩ := ih (fun old ledger hmem => hkept old ledger (List.mem_append_left _ hmem))
      fun before old ledger kept after heq => hrow before old ledger kept (after ++ [act]) (by rw [heq]; simp)
    rw [standing_append, hu']
    by_cases hact : act.IsRow p a
    · cases act with
      | row p' a' old ledger kept =>
        obtain ⟨rfl, rfl⟩ := hact
        cases kept with
        | true =>
          obtain ⟨hold, hnewer⟩ := hrow l old ledger true [] rfl
          exact ⟨ledger, if_pos ⟨rfl, rfl⟩, hle.trans (hnewer rfl u' (hold.trans hu'))⟩
        | false => exact absurd (by simp) (hkept old ledger)
      | event | tick | gap | read | refreshed | flagged | stopped | seeded => exact hact.elim
    · exact ⟨u', standing_quiet (by simpa using hact), hle⟩

end LastRow

/-! ## Runs -/

/-- The account's row, or its absence, is the last on the record, and the
snapshot it was computed from is at `ledger` or later. -/
def ComputedFrom (s : TrackerState) (pool account : String) (ledger : Nat) : Prop :=
  ∃ before accounts tick snapshot rows old kept after,
    s.acts = before ++ (.read pool accounts tick snapshot :: rows) ++
      .row pool account old snapshot.ledger kept :: after ∧
    (∀ act ∈ after, ¬act.IsRow pool account) ∧ account ∈ accounts ∧
    s.store.computedAt pool account = (if kept then some snapshot.ledger else none) ∧
    ledger ≤ snapshot.ledger

/-- Each refresh of the step reads a snapshot that is fresh. -/
def System.FreshStep (c : Service) (start : Store) (s : System) (label : SystemLabel) : Prop :=
  ReadsFresh start (s.step c label).tracker.acts

section Runs

variable {c : Service} {s t : System}

theorem reaches_standing {ok : System → SystemLabel → Prop} (h : Reaches (System.step c) ok s t) :
    Standing s.tracker t.tracker :=
  h.always (I := fun t => Standing s.tracker t.tracker) Standing.refl fun hs _ =>
    step_tracker hs fun _ _ _ => handleMessage_standing

theorem reaches_rowsRead {ok : System → SystemLabel → Prop} (h : Reaches (System.step c) ok s t)
    (h₀ : RowsRead s.tracker.acts) : RowsRead t.tracker.acts :=
  h.always (I := fun t => RowsRead t.tracker.acts) h₀ fun hs _ =>
    step_tracker (I := fun s => RowsRead s.acts) hs fun _ _ _ => handleMessage_rowsRead

theorem rowsRead_nil : RowsRead [] := ⟨fun h => by simp at h⟩

/-- From the start on, the rows are what the whole record says. -/
theorem reaches_start {cursors : String → Option Cursor} {store : Store} {needsReseed : BTreeSet String}
    {ok : System → SystemLabel → Prop} (h : Reaches (System.step c) ok (System.start cursors store needsReseed) s) :
    (∀ p a, s.tracker.store.computedAt p a = standing p a (store.computedAt p a) s.tracker.acts) ∧
    ∀ {before p a old ledger kept after}, s.tracker.acts = before ++ .row p a old ledger kept :: after →
      old = standing p a (store.computedAt p a) before := by
  obtain ⟨new, hnew, hstanding, hold⟩ := reaches_standing h
  obtain rfl : s.tracker.acts = new := hnew
  exact ⟨hstanding, hold⟩

/-- The last step's condition is the whole run's: the record only grows. -/
theorem reaches_readsFresh {store : Store} (h : Reaches (System.step c) (System.FreshStep c store) s t)
    (h₀ : ReadsFresh store s.tracker.acts) : ReadsFresh store t.tracker.acts := by
  cases h with
  | refl => exact h₀
  | tail _ hok => exact hok

/-- In the record of a run, no tick of the pool comes between an event and the
tick of its pass. -/
theorem Flowing.noTickBetween {pool : String} (h : Flowing c s pool) {old mid after : List Did} {pass ledger : Nat}
    {event : PoolEvent} {tick : LedgerTick} {applied applied' answered : Bool}
    (hacts : s.tracker.acts = old ++ .event pool pass ledger event applied ::
      (mid ++ .tick pool pass tick applied' answered :: after)) : ∀ act ∈ mid, ¬act.IsTick pool := by
  intro act hact htick
  cases act with
  | tick p n t a b =>
    obtain rfl : p = pool := htick
    have hitem : (n, Item.tick t) ∈ handledItems p mid := List.mem_filterMap.2 ⟨_, hact, by simp [Did.item]⟩
    have hflow : s.flow p = handledItems p old ++ (pass, Item.event ledger event) ::
        (handledItems p mid ++ (pass, Item.tick tick) :: (handledItems p after ++ queuedItems p s.channel)) := by
      unfold System.flow
      rw [hacts]
      simp [handledItems, Did.item]
    have hsorted := h.sorted
    rw [hflow, List.pairwise_append] at hsorted
    obtain ⟨hevent, hrest⟩ := List.pairwise_cons.1 hsorted.2.1
    have hle := (hevent _ (List.mem_append_left _ hitem)).1
    have hlt := ((List.pairwise_append.1 hrest).2.2 _ hitem _ List.mem_cons_self).2 trivial
    exact absurd hlt (not_lt.2 hle)
  | event | gap | read | row | refreshed | flagged | stopped | seeded => exact htick

/-- The last row of an account its tick served: the read behind it came after
the event, for that tick or once it was answered. -/
theorem computedFrom_served {start : Store} {s : TrackerState} {old new after : List Did} {pool account : String}
    {pass pass' ledger : Nat} {event : PoolEvent} {tick : LedgerTick}
    (hacts : s.acts = old ++ new ++ .tick pool pass tick true true :: after)
    (hevent : .event pool pass' ledger event true ∈ old) (hmem : account ∈ event.affectedAccounts)
    (hledger : ledger ≤ tick.sequence) (horderly : Orderly pool tick new) (hserves : Serves pool account new)
    (hfresh : ReadsFresh start s.acts) (hreads : RowsRead s.acts)
    (hstanding : s.store.computedAt pool account = standing pool account (start.computedAt pool account) s.acts) :
    ComputedFrom s pool account ledger := by
  obtain ⟨old₁, ledger₁, kept₁, hrow₁⟩ := hserves.row
  obtain ⟨before, last, rest, hsplit, hlast, hrest⟩ := Traces.exists_last (p := Did.IsRow pool account)
    (List.mem_append_left (.tick pool pass tick true true :: after) hrow₁) ⟨rfl, rfl⟩
  cases last with
  | row p a old₂ ledger₂ kept =>
    obtain ⟨rfl, rfl⟩ := hlast
    have hrow : s.acts = (old ++ before) ++ .row p a old₂ ledger₂ kept :: rest := by
      rw [hacts, List.append_assoc, hsplit, List.append_assoc]
    obtain ⟨earlier, accounts, tick', snapshot, rows, hbefore, haccount, rfl, -, hrows⟩ := hreads.read hrow
    have hread : s.acts = earlier ++ .read p accounts tick' snapshot ::
        (rows ++ .row p a old₂ snapshot.ledger kept :: rest) := by
      rw [hrow, hbefore]
      simp
    refine ⟨earlier, accounts, tick', snapshot, rows, old₂, kept, rest, ?_, hrest, haccount, ?_, ?_⟩
    · rw [hread]
      simp
    · rw [hstanding, hrow]
      exact standing_last hrest
    · rcases Traces.append_eq_split hsplit with ⟨after', hnew, -⟩ | ⟨before', rfl, htick⟩
      · -- Written for the tick itself.
        obtain ⟨accounts', snapshot', hin, haccount', hsame⟩ := horderly.rows hnew
        obtain ⟨lead, tail, rfl⟩ := List.append_of_mem hin
        have hread' := hfresh (old ++ lead) (.read p accounts' tick snapshot')
          (tail ++ .row p a old₂ snapshot.ledger kept :: rest) (by rw [hrow]; simp) trivial
        rw [← hsame]
        exact (hread' a haccount').1 pass' ledger event (List.mem_append_left _ hevent) hmem (.inl hledger)
      · -- Written after the tick was answered, and so was its snapshot read.
        rcases List.cons_eq_append_iff.1 htick with ⟨-, hrest⟩ | ⟨before'', rfl, -⟩
        · cases hrest
        rw [← List.append_assoc] at hbefore
        rcases Traces.append_eq_split hbefore with ⟨after', -, rfl⟩ | ⟨e', rfl, htick'⟩
        · exact (hrows (.tick p pass tick true true) (by simp)).elim
        · rcases List.cons_eq_append_iff.1 htick' with ⟨-, hrest⟩ | ⟨e'', rfl, -⟩
          · cases hrest
          refine ((hfresh _ _ _ hread trivial) a haccount).1 pass' ledger event ?_ hmem
            (.inr ⟨pass, tick, by simp, hledger⟩)
          exact List.mem_append_left _ (List.mem_append_left _ hevent)
  | event | tick | gap | read | refreshed | flagged | stopped | seeded => exact hlast.elim

theorem admitted_fresh {store : Store} {labels : List SystemLabel}
    (h : ReadsFresh store (labels.foldl (System.step c) s).tracker.acts) :
    Admitted (System.step c) (System.FreshStep c store) s labels := by
  refine admitted_of_end (C := fun s => ReadsFresh store s.tracker.acts) (fun {s l} hstep => ?_) id h
  have hreach : Reaches (System.step c) (fun _ _ => True) s (s.step c l) := Reaches.refl.tail trivial
  obtain ⟨new, hnew, -⟩ := reaches_standing hreach
  exact Traces.Before.of_append (hnew ▸ hstep)

/-- **Rows are as new as their snapshots.** In every run whose refreshes all
read fresh snapshots: once a tick is answered, the row of each account that an
event of its pass up to the tick's ledger named, or its absence, is computed
from a snapshot no older than that event; and between any two states a row
that is not deleted does not become older. -/
theorem rows_as_new_as_events (c : Service) (cursors : String → Option Cursor) (store : Store)
    (needsReseed : BTreeSet String) (s t : System)
    (hs : Reaches (System.step c) (System.FreshStep c store) (System.start cursors store needsReseed) s)
    (ht : Reaches (System.step c) (System.FreshStep c store) s t) :
    (∀ before pool pass tick after, s.tracker.acts = before ++ .tick pool pass tick true true :: after →
      ∀ ledger event account, .event pool pass ledger event true ∈ before → ledger ≤ tick.sequence →
        account ∈ event.affectedAccounts → ComputedFrom s.tracker pool account ledger) ∧
    ∀ pool account u, s.tracker.store.computedAt pool account = some u →
      (∀ new old ledger, t.tracker.acts = s.tracker.acts ++ new → .row pool account old ledger false ∉ new) →
      ∃ u', t.tracker.store.computedAt pool account = some u' ∧ u ≤ u' := by
  have hnil : ReadsFresh store [] := Traces.before_nil
  refine ⟨fun before pool pass tick after hacts ledger event account hevent hledger hmem => ?_,
    fun pool account u hu hkept => ?_⟩
  · obtain ⟨haccounted, hflowing⟩ := reaches_flowing hs
    obtain ⟨old, new, rfl, horderly, hserves⟩ := haccounted.applied hacts
    have hin : .event pool pass ledger event true ∈ old :=
      (List.mem_append.1 hevent).resolve_right fun hin => horderly.inner _ hin
    have howed : Owed old pool account := by
      obtain ⟨old', mid, rfl⟩ := List.append_of_mem hin
      refine ⟨old', pass, ledger, event, mid, rfl, hmem, fun act hact happlies => ?_⟩
      have hsplit : s.tracker.acts = old' ++ .event pool pass ledger event true ::
          ((mid ++ new) ++ .tick pool pass tick true true :: after) := by
        rw [hacts]
        simp
      refine (hflowing pool).noTickBetween hsplit act (List.mem_append_left _ hact) ?_
      cases act with
      | tick => exact happlies.1
      | event | gap | read | row | refreshed | flagged | stopped | seeded => exact happlies.elim
    exact computedFrom_served hacts hin hmem hledger horderly (hserves account howed)
      (reaches_readsFresh hs hnil) (reaches_rowsRead hs rowsRead_nil) ((reaches_start hs).1 pool account)
  · obtain ⟨new, hnew, hstanding, hold⟩ := reaches_standing ht
    have hrun := hs.append ht
    have hfresh := reaches_readsFresh ht (reaches_readsFresh hs hnil)
    have hreads := reaches_rowsRead hrun rowsRead_nil
    rw [hstanding pool account, hu]
    refine standing_le (fun old ledger => hkept new old ledger hnew) fun before old ledger kept after heq => ⟨?_, ?_⟩
    · rw [← hu]
      exact hold heq
    · rintro rfl u' rfl
      have hrow : t.tracker.acts = (s.tracker.acts ++ before) ++ .row pool account (some u') ledger true :: after := by
        rw [hnew, heq, List.append_assoc]
      exact hfresh.row_le hreads hrow ((reaches_start hrun).2 hrow)

end Runs

/-! ## One pass, two snapshots -/

/-- What the pass leaves on the record before its tick, its refresh reading at
`ledger`. -/
def passLead (ledger : Nat) : List Did :=
  [.event "pool" 1 5 (.deleteAuction .userLiquidation "borrower") true,
    .read "pool" ["borrower"] ⟨5, 0⟩ (quietSnapshot ledger), .row "pool" "borrower" none ledger false,
    .refreshed "pool" ["borrower"], .flagged "pool" "borrower" 5]

theorem afterPass_acts (ledger : Nat) :
    (afterPass ledger).tracker.acts = passLead ledger ++ .tick "pool" 1 ⟨5, 0⟩ true true :: [] := rfl

theorem rows_as_new_as_events_afterPass : ComputedFrom (afterPass 5).tracker "pool" "borrower" 5 := by
  have hfresh : ReadsFresh {} (afterPass 5).tracker.acts := by
    rw [afterPass_acts]
    refine (Traces.before_concat (l := passLead 5)).2 ⟨?_, fun _ => trivial⟩
    refine (Traces.before_concat (l := (passLead 5).take 4)).2 ⟨?_, fun _ => trivial⟩
    refine (Traces.before_concat (l := (passLead 5).take 3)).2 ⟨?_, fun _ => trivial⟩
    refine (Traces.before_concat (l := (passLead 5).take 2)).2 ⟨?_, fun _ => trivial⟩
    refine (Traces.before_concat (l := (passLead 5).take 1)).2 ⟨?_, fun _ account haccount => ⟨?_, ?_⟩⟩
    · exact (Traces.before_concat (l := [])).2 ⟨Traces.before_nil, fun _ => trivial⟩
    · intro pass ledger event hevent _ _
      cases List.mem_singleton.1 hevent
      exact le_refl 5
    · intro _ old hold
      cases hold
  have hrun : Reaches (System.step onePool) (System.FreshStep onePool {})
      (System.start (fun _ => some { ledger := 3 }) {} ∅) (afterPass 5) :=
    Reaches.refl.run (admitted_fresh hfresh)
  exact (rows_as_new_as_events onePool _ _ _ _ _ hrun Reaches.refl).1 _ "pool" 1 ⟨5, 0⟩ [] (afterPass_acts 5) 5
    (.deleteAuction .userLiquidation "borrower") "borrower" List.mem_cons_self (le_refl 5) (by decide)

/-- The head and the event were read at ledger 5, the snapshot at 4: the tick
is answered, and the borrower's row is gone on the word of ledger 4. -/
theorem row_older_than_event :
    ¬∀ (c : Service) (cursors : String → Option Cursor) (store : Store) (needsReseed : BTreeSet String) (s : System),
      Reaches (System.step c) (fun _ _ => True) (System.start cursors store needsReseed) s →
      ∀ before pool pass tick after, s.tracker.acts = before ++ .tick pool pass tick true true :: after →
        ∀ ledger event account, .event pool pass ledger event true ∈ before → ledger ≤ tick.sequence →
          account ∈ event.affectedAccounts → ComputedFrom s.tracker pool account ledger := by
  intro hall
  have hrun : Reaches (System.step onePool) (fun _ _ => True)
      (System.start (fun _ => some { ledger := 3 }) {} ∅) (afterPass 4) := Reaches.refl.run admitted_true
  obtain ⟨_, _, _, snapshot, _, old, kept, _, hacts, -, -, -, hledger⟩ := hall _ _ _ _ _ hrun _ "pool" 1 ⟨5, 0⟩ []
    (afterPass_acts 4) 5 (.deleteAuction .userLiquidation "borrower") "borrower" List.mem_cons_self
    (le_refl 5) (by decide)
  -- The one row on the record is of ledger 4.
  have hrow : ∀ old ledger kept, .row "pool" "borrower" old ledger kept ∈ (afterPass 4).tracker.acts → ledger = 4 := by
    intro old ledger kept hmem
    rw [afterPass_acts] at hmem
    simp only [passLead, List.cons_append, List.nil_append, List.mem_cons, reduceCtorEq, Did.row.injEq,
      List.not_mem_nil, or_false, false_or] at hmem
    exact hmem.2.2.2.1
  have hfour := hrow old snapshot.ledger kept (hacts ▸ List.mem_append_right _ List.mem_cons_self)
  omega

end BlendLiquidator
