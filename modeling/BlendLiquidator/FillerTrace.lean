/-
What a run of the filler may leave on its record.

What the filler remembers of the pools it is to unwind is a function of the
record: a pool is owed a pass from the seed or a landed submission on until it
is cleared, and its mark is the last submission that landed in it. Each act is
justified by what stands before it: a draft handed to the executor by the reads
of its pool's walk, a plan and a cleared pool by the snapshot of their pass and
the wallet read before it.

The executor's part of a fill or an unwind is one act, with its own record of
what the queue answered and the answer the filler goes by. The two may differ
only where the store failed, and then the act is the last of the run.
-/
import BlendLiquidator.Landings
import BlendLiquidator.PoolReaderFacts
import BlendLiquidator.Traces
import BlendLiquidator.TreeMaps

namespace BlendLiquidator

/-! ## What landed -/

namespace FillerAct

/-- The pool a submission landed in and the ledger, `none` where it may land
yet. -/
def landing : FillerAct → Option (String × Option Nat)
  | .fill _ _ plan done _ => (landed done).map (plan.pool, ·)
  | .unwind pool _ done _ => (landed done).map (pool, ·)
  | _ => none

/-- What the filler goes by. -/
def noted : FillerAct → Option (String × Option Nat)
  | .fill _ _ plan _ answer => (saysLanded ExecOutcome.landing answer).map (plan.pool, ·)
  | .unwind pool _ _ answer => (saysLanded UnwindOutcome.landing answer).map (pool, ·)
  | _ => none

def Noted (act : FillerAct) : Prop := act.landing = act.noted

/-- Nothing but a read or an observation. -/
def Neutral : FillerAct → Prop
  | .seeded _ | .fill _ _ _ _ _ | .unwind _ _ _ _ | .cleared _ _ | .dropped => False
  | _ => True

/-- Whether a pass over `pool` is owed after this act. -/
def owes (pool : String) (owed : Prop) : FillerAct → Prop
  | .seeded pools => owed ∨ pool ∈ pools
  | .cleared other _ => owed ∧ other ≠ pool
  | .dropped => False
  | act => owed ∨ ∃ ledger, act.noted = some (pool, ledger)

/-- What a snapshot of `pool` has to hold after this act. -/
def marks (pool : String) (mark : Option (Option Nat)) : FillerAct → Option (Option Nat)
  | .cleared other .noPosition => if other = pool then none else mark
  | .dropped => none
  | act => match act.noted with
    | some (other, ledger) => if other = pool then some ledger else mark
    | none => mark

def isOpened : FillerAct → Bool
  | .opened _ _ => true
  | _ => false

section Neutral

variable {act : FillerAct} {pool : String}

theorem Neutral.landing (h : act.Neutral) : act.landing = none := by cases act <;> first | rfl | exact h.elim

theorem Neutral.noted (h : act.Neutral) : act.noted = none := by cases act <;> first | rfl | exact h.elim

theorem Neutral.owes {owed : Prop} (h : act.Neutral) : act.owes pool owed ↔ owed := by
  cases act <;> first | exact h.elim | simp [FillerAct.owes, FillerAct.noted]

theorem Neutral.marks {mark : Option (Option Nat)} (h : act.Neutral) : act.marks pool mark = mark := by
  cases act <;> first | exact h.elim | rfl

end Neutral

end FillerAct

/-- What is remembered of the pools to unwind and of the wallet. -/
structure Core where
  pending : BTreeSet String
  after : BTreeMap String (Option Nat)
  seeded : Bool
  stale : Bool
  covered : BTreeSet String
  balances : BTreeMap String Int
  readAt : Option Nat

def FillerSystem.core (s : FillerSystem) : Core where
  pending := s.state.unwindPending
  after := s.state.unwindAfter
  seeded := s.state.unwindSeeded
  stale := s.state.inventoryStale
  covered := s.state.coveredAssets
  balances := s.inventory.balances
  readAt := s.inventory.readAt

namespace Filler

/-- A pass over `pool` is owed. -/
def Owed (pool : String) (acts : List FillerAct) : Prop := acts.foldl (fun owed act => act.owes pool owed) False

/-- What the next snapshot of `pool` has to hold. -/
def mark (pool : String) (acts : List FillerAct) : Option (Option Nat) :=
  acts.foldl (fun mark act => act.marks pool mark) none

/-- Nothing landed. -/
def Quiet (acts : List FillerAct) : Prop := ∀ act ∈ acts, act.landing = none

section Folds

variable {pool : String} {acts : List FillerAct} {act : FillerAct}

theorem owed_concat : Owed pool (acts ++ [act]) = act.owes pool (Owed pool acts) := by simp [Owed]

theorem mark_concat : mark pool (acts ++ [act]) = act.marks pool (mark pool acts) := by simp [mark]

theorem quiet_nil : Quiet [] := fun _ h => nomatch h

theorem Quiet.concat (h : Quiet acts) (hact : act.landing = none) : Quiet (acts ++ [act]) := by
  intro other hother
  rcases List.mem_append.1 hother with hother | hother
  · exact h other hother
  · rw [List.mem_singleton] at hother
    exact hother ▸ hact

end Folds

/-! ## What stands before an act -/

/-- The startup seed was made. -/
def Seeded (acts : List FillerAct) : Prop := ∃ pools, .seeded pools ∈ acts

/-- Since the flag was last seen unset, nothing landed. -/
def Awake (acts : List FillerAct) : Prop := ∃ before since, acts = before ++ .stop false :: since ∧ Quiet since

/-- A wallet read, each asset answered: the assets and the balances it makes. -/
def WalletRead (reads : List FillerAct) (assets : List String) (balances : BTreeMap String Int) : Prop :=
  ∃ entries : List (String × Nat × Int), reads = entries.map (fun entry => .balance entry.1 (.ok entry.2)) ∧
    assets = entries.map (·.1) ∧ balances = entries.foldl (fun balances entry => balances.insert entry.1 entry.2.2) ∅

/-- The balances are those of a read of `assets` that nothing landed after. -/
def ReadSince (acts : List FillerAct) (assets : List String) (balances : BTreeMap String Int) : Prop :=
  ∃ before reads after, acts = before ++ reads ++ after ∧ WalletRead reads assets balances ∧ Quiet after

/-- The wallet read just made failed. -/
def ReadFailed (acts : List FillerAct) : Prop := ∃ before asset error, acts = before ++ [.balance asset (.error error)]

/-- The balances may be planned against with a snapshot, every asset of it
read, or the read that would have renewed them failed. -/
def WalletAsRead (acts : List FillerAct) (snapshot : FullSnapshot) (balances : BTreeMap String Int) : Prop :=
  (∃ assets, ReadSince acts assets balances ∧ ∀ asset ∈ snapshot.assetIndex.keys, asset ∈ assets) ∨ ReadFailed acts

/-- A row of the walk that the chain holds an auction for. -/
def Kept (pool : PoolConfig) (rows : List TrackedAuction) (reads : List FillerAct)
    (live : TrackedAuction × AuctionData) : Prop :=
  live.1 ∈ rows ∧ live.1.pool = pool.address ∧ live.1.auctionType = .userLiquidation ∧
    pool.supports live.1.bid.keys live.1.lot.keys = true ∧
      ∃ ledger, .entry live.1.pool live.1.account (.ok (some (ledger, live.2))) ∈ reads

/-- A walk of `pool` before its snapshot: its rows and the entries read since. -/
structure Opened (pool : PoolConfig) (live : List (TrackedAuction × AuctionData)) (acts : List FillerAct)
    (earlier : List FillerAct) (rows : List TrackedAuction) (reads : List FillerAct) : Prop where
  acts_eq : acts = earlier ++ .opened pool.address rows :: reads
  same : ∀ act ∈ reads, act.isOpened = false
  kept : ∀ entry ∈ live, Kept pool rows reads entry

/-- A walk of `pool` after its snapshot. Nothing landed since. -/
def Walking (pool : PoolConfig) (snapshot : FullSnapshot) (live : List (TrackedAuction × AuctionData))
    (acts : List FillerAct) : Prop :=
  ∃ before earlier rows reads attempts since, Opened pool live before earlier rows reads ∧
    acts = before ++ .snapshot .walk pool.address attempts snapshot :: since ∧
    PoolReader.MadeAt snapshot attempts ∧ Quiet since

/-- A pass over `pool` after its snapshot, which holds what it was owed. Nothing
landed since. -/
def Passing (pool : String) (snapshot : FullSnapshot) (acts : List FillerAct) : Prop :=
  ∃ before attempts since, acts = before ++ .snapshot .unwind pool attempts snapshot :: since ∧ Quiet since ∧
    Owed pool before ∧ Filler.holdsIt (mark pool before) snapshot.ledger = true

/-- A draft is the planner's, from the snapshot of its pool's walk and the
entry read for its row. -/
def Drafted (f : Filler) (pool : PoolConfig) (auction : AuctionData) (plan : FillPlan) (before : List FillerAct) : Prop :=
  pool ∈ f.pools ∧ ∃ row snapshot tick context percent wallet, Walking pool snapshot [(row, auction)] before ∧
    f.poolContext pool snapshot tick = some context ∧ plan.pool = row.pool ∧ plan.user = row.account ∧
    planFill (f.terms context auction) (Filler.inputs context row.account auction percent wallet) =
      .ok (.fill plan.draft)

/-- A plan of a pass is the planner's, from its snapshot and these balances. -/
def PlannedFrom (f : Filler) (pool : String) (snapshot : FullSnapshot) (balances : BTreeMap String Int)
    (answer : Except MathError UnwindPlan) : Prop :=
  ∃ (config : PoolConfig) (filler : String) (tick : LedgerTick) (reserves : BTreeMap Nat Reserve)
    (inventory : Inventory.Ledger), config ∈ f.pools ∧ config.address = pool ∧ f.executor.filler = some filler ∧
    snapshot.accruedReserves (snapshot.valuedAt tick.closeTime) = .ok reserves ∧ inventory.balances = balances ∧
    answer = Filler.unwindPlan config snapshot (snapshot.positions.getD filler {}) reserves inventory

/-- What a pass found when it cleared its pool. -/
def Found (f : Filler) (pool : String) (snapshot : FullSnapshot) (before : List FillerAct) : ClearedBy → Prop
  | .noPosition => ∃ filler, f.executor.filler = some filler ∧
      Filler.nothingToUnwind (snapshot.positions.getD filler {}) = true
  | .idle plan => plan.isIdle = true ∧
      ∃ earlier balances, before = earlier ++ [.planned pool snapshot balances (.ok plan)]
  | .planned => f.config.dryRun = true ∧ ∃ balances plan, .planned pool snapshot balances (.ok plan) ∈ before

/-- What stands before an act of its kind. -/
def Grounds (f : Filler) (before : List FillerAct) : FillerAct → Prop
  | .seeded _ => ¬Seeded before
  | .fill pool auction plan _ _ => (Awake before ∧ Seeded before) ∧ Drafted f pool auction plan before
  | .unwind pool _ _ _ => (Awake before ∧ Seeded before) ∧ Owed pool before
  | .planned pool snapshot balances answer =>
    Owed pool before ∧ Passing pool snapshot before ∧ WalletAsRead before snapshot balances ∧
      PlannedFrom f pool snapshot balances answer
  | .cleared pool why =>
    Owed pool before ∧ ∃ snapshot, Passing pool snapshot before ∧ Found f pool snapshot before why
  | .dropped => f.executor.filler = none
  | .leftovers pool _ _ => ∃ earlier plan, before = earlier ++ [.cleared pool (.idle plan)]
  | _ => True

/-- An act is justified by what stands before it, all of which the filler took
note of. -/
def Justified (f : Filler) (before : List FillerAct) (act : FillerAct) : Prop :=
  (∀ earlier ∈ before, earlier.Noted) ∧ Grounds f before act

def Traced (f : Filler) (acts : List FillerAct) : Prop :=
  Traces.Before (fun _ => True) (Justified f) acts

/-! ## What the filler remembers -/

/-- What is remembered is what the record makes of it. -/
structure Sound (f : Filler) (core : Core) (acts : List FillerAct) : Prop where
  pending : ∀ pool, pool ∈ core.pending ↔ Owed pool acts
  marks : ∀ pool, core.after[pool]? = mark pool acts
  seeded : core.seeded = true ↔ Seeded acts
  wallet : core.stale = false → core.readAt ≠ none → ReadSince acts core.covered.toList core.balances
  noted : ∀ act ∈ acts, act.Noted
  traced : Traced f acts

section Steps

variable {f : Filler} {core core' : Core} {acts : List FillerAct} {act : FillerAct}

theorem Sound.justified (h : Sound f core acts) (hact : Grounds f acts act) :
    Justified f acts act := ⟨h.noted, hact⟩

theorem Sound.trace (h : Sound f core acts) (hact : Grounds f acts act) :
    Traced f (acts ++ [act]) := Traces.before_concat.2 ⟨h.traced, fun _ => h.justified hact⟩

/-- One act, and what the filler makes of it. -/
theorem Sound.concat (h : Sound f core acts) (hact : Grounds f acts act) (hnoted : act.Noted)
    (hpending : ∀ pool, pool ∈ core'.pending ↔ act.owes pool (pool ∈ core.pending))
    (hmarks : ∀ pool, core'.after[pool]? = act.marks pool core.after[pool]?)
    (hseeded : core'.seeded = true ↔ Seeded (acts ++ [act]))
    (hwallet : core'.stale = false → core'.readAt ≠ none →
      ReadSince (acts ++ [act]) core'.covered.toList core'.balances) :
    Sound f core' (acts ++ [act]) where
  pending pool := by
    rw [hpending, owed_concat, propext (h.pending pool)]
  marks pool := by
    rw [hmarks, mark_concat, h.marks]
  seeded := hseeded
  wallet := hwallet
  noted := by
    intro other hother
    rcases List.mem_append.1 hother with hother | hother
    · exact h.noted other hother
    · rw [List.mem_singleton] at hother
      exact hother ▸ hnoted
  traced := h.trace hact

theorem seeded_concat (hact : ∀ pools, act ≠ .seeded pools) : Seeded (acts ++ [act]) ↔ Seeded acts := by
  constructor
  · rintro ⟨pools, hpools⟩
    rcases List.mem_append.1 hpools with hpools | hpools
    · exact ⟨pools, hpools⟩
    · rw [List.mem_singleton] at hpools
      exact absurd hpools.symm (hact pools)
  · rintro ⟨pools, hpools⟩
    exact ⟨pools, List.mem_append_left _ hpools⟩

theorem ReadSince.concat {assets : List String} {balances : BTreeMap String Int} (h : ReadSince acts assets balances)
    (hact : act.landing = none) : ReadSince (acts ++ [act]) assets balances := by
  obtain ⟨before, reads, after, rfl, hreads, hafter⟩ := h
  exact ⟨before, reads, after ++ [act], by simp, hreads, hafter.concat hact⟩

/-- An act that changes nothing the filler remembers. -/
theorem Sound.did (h : Sound f core acts) (hact : Grounds f acts act) (hneutral : act.Neutral) :
    Sound f core (acts ++ [act]) := by
  refine h.concat hact (hneutral.landing.trans hneutral.noted.symm) (fun _ => hneutral.owes.symm)
    (fun _ => hneutral.marks.symm) ?_ fun hstale hread => (h.wallet hstale hread).concat hneutral.landing
  rw [h.seeded, seeded_concat]
  rintro pools rfl
  exact hneutral

/-- What a submission leaves of what is remembered: the wallet as the executor
left it, and where it landed, or may have, a pass that is owed a snapshot that
holds it. -/
def Core.submitted (core : Core) (balances : BTreeMap String Int) (readAt : Option Nat) :
    Option (String × Option Nat) → Core
  | none => { core with balances, readAt }
  | some (pool, ledger) =>
    { core with balances, readAt, stale := true, pending := core.pending.insert pool
                after := core.after.insert pool ledger }

/-- A submission, and what the filler makes of its answer. -/
theorem Sound.submitted (h : Sound f core acts) (hact : Grounds f acts act) (hnoted : act.Noted)
    (howes : ∀ pool owed, act.owes pool owed ↔ owed ∨ ∃ ledger, act.noted = some (pool, ledger))
    (hmarks : ∀ pool mark, act.marks pool mark = match act.noted with
      | some (other, ledger) => if other = pool then some ledger else mark
      | none => mark)
    (hseeded : ∀ pools, act ≠ .seeded pools) {balances : BTreeMap String Int} {readAt : Option Nat}
    (hwallet : act.noted = none → balances = core.balances ∧ readAt = core.readAt) :
    Sound f (Core.submitted core balances readAt act.noted) (acts ++ [act]) := by
  cases hnote : act.noted with
  | none =>
    obtain ⟨rfl, rfl⟩ := hwallet hnote
    refine h.concat hact hnoted (fun pool => ?_) (fun pool => ?_) ?_ fun hstale hread => ?_
    · rw [howes, hnote]
      simp [Core.submitted]
    · rw [hmarks, hnote]
      rfl
    · rw [seeded_concat hseeded]
      exact h.seeded
    · exact (h.wallet hstale hread).concat (hnoted.trans hnote)
  | some note =>
    obtain ⟨pool, ledger⟩ := note
    refine h.concat hact hnoted (fun other => ?_) (fun other => ?_) ?_ fun hstale => ?_
    · rw [howes, hnote]
      show other ∈ core.pending.insert pool ↔ _
      rw [TreeMaps.mem_set_insert]
      simp [or_comm]
    · rw [hmarks, hnote]
      show (core.after.insert pool ledger)[other]? = _
      rw [TreeMaps.getElem?_insert]
    · rw [seeded_concat hseeded]
      exact h.seeded
    · cases hstale

/-- Balances just read, in place of the last ones. -/
theorem Sound.renewed (h : Sound f core acts) {covered : BTreeSet String} {balances : BTreeMap String Int}
    (hread : ReadSince acts covered.toList balances) (readAt : Option Nat) :
    Sound f { core with stale := false, covered, balances, readAt } acts where
  pending := h.pending
  marks := h.marks
  seeded := h.seeded
  wallet := fun _ _ => hread
  noted := h.noted
  traced := h.traced

/-- Only which pools are pending matters. -/
theorem Sound.pending_congr (h : Sound f core acts) {pending : BTreeSet String}
    (hpending : ∀ pool, pool ∈ pending ↔ pool ∈ core.pending) : Sound f { core with pending } acts where
  pending pool := (hpending pool).trans (h.pending pool)
  marks := h.marks
  seeded := h.seeded
  wallet := h.wallet
  noted := h.noted
  traced := h.traced

end Steps

end Filler

end BlendLiquidator
