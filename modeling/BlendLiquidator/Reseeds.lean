/-
When a pool stops being owed a seed.

`needs_reseed` loses a pool only where a seed of it answered with no failed
source. Such a seed is complete, in the sense of `is_complete`, unless it found
shutdown requested before one of its batches, which the test on
`failed_sources` alone does not see. The development says so once, of one
message (`Reseeding`, which composes), and draws the two laws of runs from it:
of runs in which no seed that reached every source is cut short, and that some
run without this breaks them.
-/
import BlendLiquidator.Acknowledged

namespace BlendLiquidator

open Calls Oracle

/-! ## A seed on the record -/

/-- A seed of the pool reached every source, and if it was cut short the
record says so. -/
def SeededWell (pool : String) (acts : List Did) : Prop :=
  ∃ outcome, .seeded pool outcome ∈ acts ∧ outcome.failedSources = 0 ∧
    (outcome.stoppedEarly = true → .stopped pool 0 ∈ acts)

/-- A complete seed of the pool ran. -/
def CompleteSeed (pool : String) (acts : List Did) : Prop :=
  ∃ outcome, .seeded pool outcome ∈ acts ∧ outcome.isComplete = true

section Record

variable {pool : String} {l m : List Did}

theorem SeededWell.append_left (h : SeededWell pool m) : SeededWell pool (l ++ m) := by
  obtain ⟨outcome, hseeded, hfailed, hstopped⟩ := h
  exact ⟨outcome, List.mem_append_right _ hseeded, hfailed, fun hs => List.mem_append_right _ (hstopped hs)⟩

theorem SeededWell.append_right (h : SeededWell pool l) : SeededWell pool (l ++ m) := by
  obtain ⟨outcome, hseeded, hfailed, hstopped⟩ := h
  exact ⟨outcome, List.mem_append_left _ hseeded, hfailed, fun hs => List.mem_append_left _ (hstopped hs)⟩

/-- A seed that reached every source and was not cut short is complete. -/
theorem SeededWell.complete (h : SeededWell pool l) (hcut : .stopped pool 0 ∉ l) : CompleteSeed pool l := by
  obtain ⟨outcome, hseeded, hfailed, hstopped⟩ := h
  refine ⟨outcome, hseeded, ?_⟩
  cases hearly : outcome.stoppedEarly with
  | true => exact absurd (hstopped hearly) hcut
  | false => simp [SeedOutcome.isComplete, hfailed, hearly]

end Record

/-! ## What becomes of the owed seeds -/

/-- From `s₀` to `s` a pool that was owed a seed still is, or was seeded; and
so from every gap on. -/
def Reseeding (s₀ s : TrackerState) : Prop :=
  ∃ new, s.acts = s₀.acts ++ new ∧
    (∀ q ∈ s₀.loop.needsReseed, q ∈ s.loop.needsReseed ∨ SeededWell q new) ∧
    ∀ {before q after}, new = before ++ .gap q :: after → q ∈ s.loop.needsReseed ∨ SeededWell q after

section Reseeding

variable {s₀ s s' : TrackerState} {act : Did} {pool : String} {tick : LedgerTick}

theorem Reseeding.refl : Reseeding s s := ⟨[], by simp, fun _ hq => .inl hq, by simp⟩

theorem Reseeding.trans (h : Reseeding s₀ s) (h' : Reseeding s s') : Reseeding s₀ s' := by
  obtain ⟨new, hacts, howed, hgaps⟩ := h
  obtain ⟨new', hacts', howed', hgaps'⟩ := h'
  refine ⟨new ++ new', by rw [hacts', hacts, List.append_assoc], fun q hq => ?_, fun {before q after} heq => ?_⟩
  · rcases howed q hq with hq | hq
    · rcases howed' q hq with hq | hq
      · exact .inl hq
      · exact .inr hq.append_left
    · exact .inr hq.append_right
  · rcases Traces.append_eq_split heq with ⟨after', hnew, rfl⟩ | ⟨before', -, hnew⟩
    · rcases hgaps hnew with hq | hq
      · rcases howed' q hq with hq | hq
        · exact .inl hq
        · exact .inr hq.append_left
      · exact .inr hq.append_right
    · exact hgaps' hnew

/-- An act that is no gap. -/
theorem Reseeding.did (hact : ∀ q, act ≠ .gap q) : Reseeding s { s with acts := s.acts ++ [act] } := by
  refine ⟨[act], rfl, fun _ hq => .inl hq, fun {before q after} heq => ?_⟩
  have hmem : Did.gap q ∈ [act] := by rw [heq]; simp
  exact absurd (List.mem_singleton.1 hmem).symm (hact q)

/-- A change of the loop that keeps what is owed. -/
theorem Reseeding.setLoop {loop : LoopState} (h : ∀ q ∈ s.loop.needsReseed, q ∈ loop.needsReseed) :
    Reseeding s { s with loop := loop } := ⟨[], by simp, fun q hq => .inl (h q hq), by simp⟩

theorem Reseeding.steady : Steady pool (Reseeding s₀) where
  store _ _ h := h
  act s act hinner h := h.trans <| Reseeding.did fun q heq => by
    subst heq
    exact hinner

end Reseeding

/-! ## Seeding -/

section Seeding

variable {env : Nat → Reading} {c : Service} {pool : String} {tick : LedgerTick} {s₀ : TrackerState}

/-- The record since `base` says whether the seed was cut short. -/
def SeedTold (pool : String) (base : List Did) (failed : Nat) (outcome : SeedOutcome) (s : TrackerState) : Prop :=
  outcome.failedSources = failed ∧ ∃ new, s.acts = base ++ new ∧
    (outcome.stoppedEarly = true → .stopped pool failed ∈ new)

theorem seedTold_pure {base : List Did} {outcome : SeedOutcome} (hrunning : outcome.stoppedEarly = false) :
    Gives env (fun s => base <+: s.acts) (pure outcome : Tracking TrackerError SeedOutcome)
      (SeedTold pool base outcome.failedSources) := by
  rintro t s ⟨new, hnew⟩ _ ha
  cases ha
  refine ⟨rfl, new, hnew.symm, fun h => ?_⟩
  rw [hrunning] at h
  cases h

theorem seedBatches_told {base : List Did} {batch left : Nat} {accounts : List String} {outcome : SeedOutcome}
    (hrunning : outcome.stoppedEarly = false) :
    Gives env (fun s => base <+: s.acts) (Tracker.seedBatches pool tick batch left accounts outcome)
      (SeedTold pool base outcome.failedSources) := by
  induction left generalizing accounts outcome with
  | zero => exact seedTold_pure hrunning
  | succ left ih =>
    unfold Tracker.seedBatches
    split
    · exact seedTold_pure hrunning
    · refine Gives.after Stays.ask fun stopping => ?_
      split
      · rintro t s ⟨new, hnew⟩ _ ha
        cases ha
        refine ⟨rfl, new ++ [.stopped pool outcome.failedSources], ?_, fun _ => by simp⟩
        show s.acts ++ _ = _
        rw [← hnew, List.append_assoc]
      · exact Gives.after (refresh_stays longer_steady) fun result => ih hrunning

/-- A seed that answered with no failed source stands on the record. -/
theorem seed_told {sources batch : Nat} :
    Gives env (· = s₀) (Tracker.seed pool sources tick batch) fun outcome s => outcome.failedSources = 0 →
      ∃ new, s.acts = s₀.acts ++ new ∧ SeededWell pool new := by
  refine Gives.conseq (P := fun s => s₀.acts <+: s.acts) ?_ (fun s hs => hs ▸ List.prefix_rfl) fun _ _ => id
  refine Gives.after collect_stays fun collected => ?_
  refine (seedBatches_told rfl).bind fun outcome => ?_
  rintro t s ⟨hfailed, new, hnew, hstopped⟩ _ ha hzero
  cases ha
  refine ⟨new ++ [.seeded pool outcome], ?_, outcome, by simp, hzero, fun hearly => ?_⟩
  · show s.acts ++ _ = _
    rw [hnew, List.append_assoc]
  · have := hstopped hearly
    rw [← hfailed, hzero] at this
    exact List.mem_append_left _ this

/-- A seed only works for its pool. -/
def Seeding (pool : String) (s₀ s : TrackerState) : Prop :=
  s.loop = s₀.loop ∧ ∃ new, s.acts = s₀.acts ++ new ∧ ∀ act ∈ new, act.Inner pool

theorem Seeding.steady : Steady pool (Seeding pool s₀) where
  store _ _ h := h
  act s act hinner h := by
    obtain ⟨hloop, new, hnew, hin⟩ := h
    refine ⟨hloop, new ++ [act], ?_, fun a ha => ?_⟩
    · show s.acts ++ [act] = _
      rw [hnew, List.append_assoc]
    · rcases List.mem_append.1 ha with ha | ha
      · exact hin a ha
      · exact List.mem_singleton.1 ha ▸ hinner

/-- What a seed left owed, and what the loop makes of it. -/
theorem Seeding.reseeding {s : TrackerState} {loop : LoopState} (h : Seeding pool s₀ s)
    (howed : ∀ q ∈ s.loop.needsReseed, q ∈ loop.needsReseed ∨
      ∃ new, s.acts = s₀.acts ++ new ∧ SeededWell q new) : Reseeding s₀ { s with loop := loop } := by
  obtain ⟨hloop, new, hnew, hin⟩ := h
  refine ⟨new, hnew, fun q hq => ?_, fun {before q after} heq => ?_⟩
  · rcases howed q (hloop ▸ hq) with hq | ⟨new', hnew', hseeded⟩
    · exact .inl hq
    · exact .inr (List.append_cancel_left (hnew.symm.trans hnew') ▸ hseeded)
  · exact (hin (.gap q) (by rw [heq]; simp)).elim

theorem reseed_reseeding : Triple env (· = s₀) (c.reseed pool tick) fun r s => r ≠ .running ∧ Reseeding s₀ s := by
  have hseed : Triple env (· = s₀) (Tracker.seed pool c.seedSources tick c.cadence.refreshBatch) fun r s =>
      (r ≠ .running ∧ Seeding pool s₀ s) ∧ ∀ outcome, r = .ok outcome → outcome.failedSources = 0 →
        ∃ new, s.acts = s₀.acts ++ new ∧ SeededWell pool new :=
    ((seed_stays Seeding.steady.framed).and seed_told).pre fun s hs => by
      subst hs
      exact ⟨⟨rfl, [], by simp, by simp⟩, rfl⟩
  have hsame : ∀ {s}, Seeding pool s₀ s → Reseeding s₀ s := fun h => h.reseeding fun _ hq => .inl hq
  refine hseed.bind (fun outcome => ?_) (fun _ s hs => ⟨nofun, hsame hs.1.2⟩) fun s hs => absurd rfl hs.1.1
  have hglance : Stays env (fun s => Seeding pool s₀ s ∧ (outcome.failedSources = 0 →
      ∃ new, s.acts = s₀.acts ++ new ∧ SeededWell pool new)) glance := glance_stays fun _ _ _ h => h
  refine Triple.pre (Triple.bind hglance (fun _ => ?_) (fun _ s hs => ⟨nofun, hsame hs.2.1⟩)
    fun s hs => absurd rfl hs.1) fun s hs => ⟨hs.1.2, hs.2 outcome rfl⟩
  rintro t s ⟨-, hseeding, htold⟩
  unfold Service.settleSeed
  split
  · next hzero =>
    refine ⟨nofun, hseeding.reseeding fun q hq => ?_⟩
    by_cases hpool : pool = q
    · exact .inr (hpool ▸ htold hzero)
    · exact .inl (TreeMaps.mem_set_erase.2 ⟨hpool, hq⟩)
  · exact ⟨nofun, hsame hseeding⟩

theorem Reseeding.looping : Looping c pool tick (Reseeding s₀) where
  toFramed := Reseeding.steady.framed
  reseed env := by
    intro t s hs
    obtain ⟨hrun, hreseed⟩ := @reseed_reseeding env c pool tick s t s rfl
    exact ⟨hrun, hs.trans hreseed⟩
  scanned s _ h := h.trans (Reseeding.setLoop fun _ hq => hq)

theorem Reseeding.gap {s : TrackerState} : Reseeding s (gapped pool s) := by
  refine ⟨[.gap pool], rfl, fun q hq => .inl (TreeMaps.mem_set_insert.2 (.inr hq)), fun {before q after} heq => .inl ?_⟩
  have hmem : Did.gap q ∈ [Did.gap pool] := by rw [heq]; simp
  cases List.mem_singleton.1 hmem
  exact TreeMaps.mem_set_insert.2 (.inl rfl)

/-- What one message does to the owed seeds. -/
theorem handleMessage_reseeding {pass : Nat} {message : PollerMessage} :
    Stays env (Reseeding s₀) (c.handleMessage pass message) :=
  handleMessage_stays {
    looping := fun _ => Reseeding.looping
    extended := fun _ _ h => h.trans (Reseeding.setLoop fun _ hq => hq)
    marked := fun _ h => h.trans (Reseeding.setLoop fun _ hq => hq)
    taken := fun _ h => h.trans (Reseeding.setLoop fun _ hq => hq)
    gapped := fun _ h => h.trans Reseeding.gap
    ends := fun _ _ hends h => h.trans <| Reseeding.did fun _ heq => by
      subst heq
      exact hends
    published := fun _ _ h => h }

end Seeding

/-! ## Runs -/

/-- The step finds no seed that reached every source cut short by a shutdown
request. -/
def System.Uncut (c : Service) (s : System) (label : SystemLabel) : Prop :=
  ∀ pool, .stopped pool 0 ∈ (s.step c label).tracker.acts → .stopped pool 0 ∈ s.tracker.acts

section Runs

variable {c : Service} {s t : System}

theorem step_reseeding {label : SystemLabel} : Reseeding s.tracker (s.step c label).tracker :=
  step_tracker Reseeding.refl fun _ _ _ => handleMessage_reseeding

theorem reaches_reseeding {ok : System → SystemLabel → Prop} (h : Reaches (System.step c) ok s t) :
    Reseeding s.tracker t.tracker :=
  h.always (I := fun t => Reseeding s.tracker t.tracker) Reseeding.refl fun hs _ => hs.trans step_reseeding

theorem reaches_uncut (h : Reaches (System.step c) (System.Uncut c) s t)
    (h₀ : ∀ pool, .stopped pool 0 ∉ s.tracker.acts) : ∀ pool, .stopped pool 0 ∉ t.tracker.acts :=
  h.always (I := fun t => ∀ pool, .stopped pool 0 ∉ t.tracker.acts) h₀ fun hs hl pool hmem => hs pool (hl pool hmem)

/-- A run whose record says of no seed that it was cut short. -/
theorem admitted_uncut {labels : List SystemLabel}
    (h : ∀ pool, .stopped pool 0 ∉ (labels.foldl (System.step c) s).tracker.acts) :
    Admitted (System.step c) (System.Uncut c) s labels := by
  refine admitted_of_end (C := fun s => ∀ pool, .stopped pool 0 ∉ s.tracker.acts) (fun {s l} hstep pool hmem => ?_)
    (fun hstep pool hmem => absurd hmem (hstep pool)) h
  obtain ⟨new, hnew, -⟩ := @step_reseeding c s l
  exact hstep pool (hnew ▸ List.mem_append_left _ hmem)

/-- **A gap is made good by complete seeds only.** In every run in which no
seed that reached every source is cut short: between any two of its states a
pool stops being owed a seed only by a complete seed of it, and in each of its
states, a cursor write or not, a pool that had a gap is owed a seed or had a
complete one since. -/
theorem gaps_made_good (c : Service) (cursors : String → Option Cursor) (store : Store)
    (needsReseed : BTreeSet String) (s t : System)
    (hs : Reaches (System.step c) (System.Uncut c) (System.start cursors store needsReseed) s)
    (ht : Reaches (System.step c) (System.Uncut c) s t) :
    (∀ pool ∈ s.tracker.loop.needsReseed, pool ∈ t.tracker.loop.needsReseed ∨
      ∃ new, t.tracker.acts = s.tracker.acts ++ new ∧ CompleteSeed pool new) ∧
    ∀ before pool after, t.tracker.acts = before ++ .gap pool :: after →
      pool ∈ t.tracker.loop.needsReseed ∨ CompleteSeed pool after := by
  have huncut := reaches_uncut ht (reaches_uncut hs fun _ hmem => by cases hmem)
  refine ⟨fun pool hpool => ?_, fun before pool after hacts => ?_⟩
  · obtain ⟨new, hnew, howed, -⟩ := reaches_reseeding ht
    refine (howed pool hpool).imp id fun hseeded => ⟨new, hnew, hseeded.complete fun hmem => ?_⟩
    exact huncut pool (hnew ▸ List.mem_append_right _ hmem)
  · obtain ⟨new, hnew, -, hgaps⟩ := (reaches_reseeding hs).trans (reaches_reseeding ht)
    have hnew : t.tracker.acts = new := hnew
    refine (hgaps (hnew.symm.trans hacts)).imp id fun hseeded => hseeded.complete fun hmem => ?_
    exact huncut pool (hacts ▸ List.mem_append_right _ (List.mem_cons_of_mem _ hmem))

end Runs

/-! ## One gap -/

/-- Head is 20 in a window that begins at 10; no event is held. -/
def gapWorld : PollWorld where
  health := .ok { oldestLedger := 10 }
  latestLedger := .ok { sequence := 20, closeTime := 0 }
  events := .ok { latestLedger := 20, cursor := none, events := [] }

/-- The one source names one account; `stopping` is the shutdown flag. -/
def seedReading (stopping : Bool) : Reading where
  snapshot := .ok (quietSnapshot 20)
  latestLedger := .ok { sequence := 20, closeTime := 0 }
  source := some ["borrower"]
  shutdown := stopping

/-- A pass over a cursor that fell out of the window, up to its write: the gap
is handled before the tick. -/
def gapPass (stopping : Bool) : List SystemLabel :=
  .begin "pool" :: List.replicate 5 (.answer "pool" gapWorld) ++
    .handle (fun _ => seedReading stopping) :: List.replicate 3 (.answer "pool" gapWorld) ++
    [.handle fun _ => seedReading stopping, .answer "pool" gapWorld]

def oneSource : Service := { onePool with seedSources := 1 }

def gapStart : System := System.start (fun _ => some { ledger := 3 }) {} ∅

def afterGap (stopping : Bool) : System := (gapPass stopping).foldl (System.step oneSource) gapStart

theorem gaps_made_good_afterGap : ∃ before after,
    (afterGap false).tracker.acts = before ++ .gap "pool" :: after ∧ CompleteSeed "pool" after := by
  have hacts : (afterGap false).tracker.acts = [] ++ .gap "pool" ::
      [.read "pool" ["borrower"] ⟨20, 0⟩ (quietSnapshot 20), .row "pool" "borrower" none 20 false,
        .refreshed "pool" ["borrower"], .seeded "pool" {}, .tick "pool" 1 ⟨20, 0⟩ true true] := rfl
  have hrun : Reaches (System.step oneSource) (System.Uncut oneSource) gapStart (afterGap false) := by
    refine Reaches.refl.run (admitted_uncut fun pool hmem => ?_)
    have hmem : .stopped pool 0 ∈ (afterGap false).tracker.acts := hmem
    rw [hacts] at hmem
    simp at hmem
  refine ⟨_, _, hacts, ?_⟩
  refine ((gaps_made_good oneSource _ _ _ _ _ Reaches.refl hrun).2 _ _ _ hacts).resolve_left ?_
  decide

/-- The run that shutdown cuts into: the cursor is about to be written at
ledger 20, the pool is owed nothing, and its seed valued no account. -/
theorem gap_forgotten :
    ¬∀ (c : Service) (cursors : String → Option Cursor) (store : Store) (needsReseed : BTreeSet String) (s : System),
      Reaches (System.step c) (fun _ _ => True) (System.start cursors store needsReseed) s →
      ∀ pool cursor next, (s.pollers pool).pass = .op (.setCursor cursor) next →
        ∀ before after, s.tracker.acts = before ++ .gap pool :: after →
          pool ∈ s.tracker.loop.needsReseed ∨ CompleteSeed pool after := by
  intro hall
  have hrun : Reaches (System.step oneSource) (fun _ _ => True) gapStart (afterGap true) :=
    Reaches.refl.run admitted_true
  have hacts : (afterGap true).tracker.acts = [] ++ .gap "pool" ::
      [.stopped "pool" 0, .seeded "pool" { stoppedEarly := true }, .tick "pool" 1 ⟨20, 0⟩ true true] := rfl
  rcases hall _ _ _ _ _ hrun "pool" { ledger := 20 } _ rfl _ _ hacts with howed | ⟨outcome, hseeded, hcomplete⟩
  · revert howed
    decide
  · simp at hseeded
    subst hseeded
    cases hcomplete

end BlendLiquidator
