/-
What every run of the filler keeps to, read off its record.

A pool's mark is the last submission that landed in it, so a snapshot that
holds the mark holds every submission, as long as the queue keeps to its word:
ledgers do not go back, and an outcome that is not known comes with a shutdown.
The wallet and the auction's entry are read with no such rule. What is made of
them is current where the reads are.
-/
import BlendLiquidator.FillerFacts
import BlendLiquidator.QueueFacts

namespace BlendLiquidator

namespace Filler

/-! ## Unwinds on evidence -/

/-- What the queue keeps to: this key's transactions land in ledgers that do not
go back, and once an outcome is not known the flag is seen set. -/
structure QueueKept (acts : List FillerAct) : Prop where
  ordered : acts.Pairwise fun earlier later => ∀ pool ledger pool' ledger',
    earlier.landing = some (pool, some ledger) → later.landing = some (pool', some ledger') → ledger ≤ ledger'
  stopped : acts.Pairwise fun earlier later => ∀ pool, earlier.landing = some (pool, none) → later ≠ .stop false

/-- A ledger holds every submission that landed in `pool`. -/
def Holds (ledger : Nat) (pool : String) (acts : List FillerAct) : Prop :=
  ∀ act ∈ acts, ∀ landed, act.landing = some (pool, landed) → ∃ known, landed = some known ∧ known ≤ ledger

theorem Holds.append {ledger : Nat} {pool : String} {acts since : List FillerAct} {act : FillerAct}
    (h : Holds ledger pool acts) (hact : ∀ other ∈ act :: since, other.landing = none) :
    Holds ledger pool (acts ++ act :: since) := by
  intro other hother landed hland
  rcases List.mem_append.1 hother with hother | hother
  · exact h other hother landed hland
  · rw [hact other hother] at hland
    cases hland

section Evidence

variable {f : Filler} {pool : String} {acts : List FillerAct} {act : FillerAct}

theorem QueueKept.of_append {more : List FillerAct} (h : QueueKept (acts ++ more)) : QueueKept acts :=
  ⟨(List.pairwise_append.1 h.ordered).1, (List.pairwise_append.1 h.stopped).1⟩

/-- A queue whose outcomes are all known, in ledgers that do not go back. -/
theorem QueueKept.of_known (landings : List (String × Nat))
    (hacts : acts.filterMap FillerAct.landing = landings.map fun landing => (landing.1, some landing.2))
    (hordered : landings.Pairwise fun earlier later => earlier.2 ≤ later.2) : QueueKept acts := by
  constructor
  · have hpair : (acts.filterMap FillerAct.landing).Pairwise fun earlier later => ∀ ledger ledger',
        earlier.2 = some ledger → later.2 = some ledger' → ledger ≤ ledger' := by
      rw [hacts, List.pairwise_map]
      refine hordered.imp fun h ledger ledger' hledger hledger' => ?_
      cases hledger
      cases hledger'
      exact h
    refine (List.pairwise_filterMap.1 hpair).imp fun h pool ledger pool' ledger' hland hland' => ?_
    exact h _ hland _ hland' ledger ledger' rfl rfl
  · refine List.pairwise_of_forall_mem_list fun earlier hearlier later _ pool hland => ?_
    have hmem : (pool, none) ∈ acts.filterMap FillerAct.landing := List.mem_filterMap.2 ⟨earlier, hearlier, hland⟩
    simp [hacts] at hmem

/-- What landed is a submission's, made with the flag seen unset and the seed
made. -/
theorem Justified.submitted (h : Justified f acts act) (hland : act.landing ≠ none) : Awake acts ∧ Seeded acts := by
  cases act with
  | fill pool auction plan done answer => exact h.2.1
  | unwind pool plan done answer => exact h.2.1
  | _ => exact absurd rfl hland

theorem Traced.seeded_of_landing (h : Traced f acts) (hmem : act ∈ acts) (hland : act.landing ≠ none) :
    Seeded acts := by
  obtain ⟨before, after, rfl⟩ := List.append_of_mem hmem
  obtain ⟨pools, hpools⟩ := ((h before act after rfl trivial).submitted hland).2
  exact ⟨pools, List.mem_append_left _ hpools⟩

/-- While the filler is awake, every outcome is known. -/
theorem QueueKept.known (h : QueueKept acts) (hawake : Awake acts) (hmem : act ∈ acts) {landed : Option Nat}
    (hland : act.landing = some (pool, landed)) : ∃ known, landed = some known := by
  obtain ⟨before, since, rfl, hquiet⟩ := hawake
  cases landed with
  | some known => exact ⟨known, rfl⟩
  | none =>
    rcases List.mem_append.1 hmem with hmem | hmem
    · have hpair := (List.pairwise_append.1 h.stopped).2.2 act hmem (.stop false) (by simp)
      exact absurd rfl (hpair pool hland)
    · rcases List.mem_cons.1 hmem with rfl | hmem
      · cases hland
      · rw [hquiet act hmem] at hland
        cases hland

/-- An act that lands nothing and seeds nothing leaves a pool's mark, where a
pass is owed after it. -/
theorem owed_of_unlanded (hnoted : act.Noted) (hland : act.landing = none) (hseed : ∀ pools, act ≠ .seeded pools)
    (howed : Owed pool (acts ++ [act])) : Owed pool acts ∧ mark pool (acts ++ [act]) = mark pool acts := by
  have hnone : act.noted = none := hnoted.symm.trans hland
  rw [owed_concat] at howed
  rw [mark_concat]
  cases act with
  | seeded pools => exact absurd rfl (hseed pools)
  | dropped => exact howed.elim
  | cleared other why =>
    refine ⟨howed.1, ?_⟩
    cases why with
    | noPosition => exact if_neg howed.2
    | idle plan => rfl
    | planned => rfl
  | fill config auction plan done answer =>
    simp only [FillerAct.owes, hnone] at howed
    refine ⟨by simpa using howed, ?_⟩
    simp only [FillerAct.marks, hnone]
  | unwind other plan done answer =>
    simp only [FillerAct.owes, hnone] at howed
    refine ⟨by simpa using howed, ?_⟩
    simp only [FillerAct.marks, hnone]
  | _ =>
    simp only [FillerAct.owes, hnone] at howed
    exact ⟨by simpa using howed, rfl⟩

/-- A submission that landed in another pool changes nothing for this one, and
one that landed in it is its mark. -/
theorem owed_of_landed {other : String} {landed : Option Nat} (hnoted : act.Noted)
    (hland : act.landing = some (other, landed)) :
    (Owed pool (acts ++ [act]) ↔ Owed pool acts ∨ other = pool) ∧
      mark pool (acts ++ [act]) = if other = pool then some landed else mark pool acts := by
  have hsome : act.noted = some (other, landed) := hnoted.symm.trans hland
  rw [owed_concat, mark_concat]
  cases act with
  | fill config auction plan done answer => simp [FillerAct.owes, FillerAct.marks, hsome]
  | unwind pool' plan done answer => simp [FillerAct.owes, FillerAct.marks, hsome]
  | _ => cases hland

/-- **The mark is the latest of all.** Where a pass is owed, no submission that
landed in the pool is past its mark. -/
theorem mark_latest (htraced : Traced f acts) (hnoted : ∀ act ∈ acts, act.Noted) (hqueue : QueueKept acts)
    (howed : Owed pool acts) (hmem : act ∈ acts) {landed : Option Nat} (hland : act.landing = some (pool, landed)) :
    ∃ last, mark pool acts = some last ∧ ∀ known, last = some known → ∃ ledger, landed = some ledger ∧ ledger ≤ known := by
  induction acts using List.reverseRecOn with
  | nil => cases hmem
  | append_singleton acts last ih =>
    have htraced' : Traced f acts := htraced.of_append
    have hnoted' : ∀ act ∈ acts, act.Noted := fun act hact => hnoted act (List.mem_append_left _ hact)
    have hjustified := htraced acts last [] rfl trivial
    have hlast := hnoted last (by simp)
    cases hnew : last.landing with
    | none =>
      have hbefore : act ∈ acts := by
        rcases List.mem_append.1 hmem with hmem | hmem
        · exact hmem
        · rw [List.mem_singleton.1 hmem, hnew] at hland
          cases hland
      have hseed : ∀ pools, last ≠ .seeded pools := by
        rintro pools rfl
        exact hjustified.2 (htraced'.seeded_of_landing hbefore (by rw [hland]; simp))
      obtain ⟨howed, hmark⟩ := owed_of_unlanded hlast hnew hseed howed
      rw [hmark]
      exact ih htraced' hnoted' hqueue.of_append howed hbefore
    | some new =>
      obtain ⟨other, ledger⟩ := new
      have hstep : (Owed pool (acts ++ [last]) ↔ Owed pool acts ∨ other = pool) ∧ mark pool (acts ++ [last]) = _ :=
        owed_of_landed hlast hnew
      rw [hstep.2]
      by_cases hsame : other = pool
      · rw [if_pos hsame]
        refine ⟨ledger, rfl, ?_⟩
        rintro known rfl
        rcases List.mem_append.1 hmem with hmem | hmem
        · have hawake := (hjustified.submitted (by rw [hnew]; simp)).1
          obtain ⟨earlier, rfl⟩ := hqueue.of_append.known hawake hmem hland
          have hpair := (List.pairwise_append.1 hqueue.ordered).2.2 act hmem last (by simp)
          exact ⟨earlier, rfl, hpair _ _ _ _ hland hnew⟩
        · rw [List.mem_singleton.1 hmem, hnew] at hland
          cases hland
          exact ⟨known, rfl, le_rfl⟩
      · have hmem : act ∈ acts := by
          rcases List.mem_append.1 hmem with hmem | hmem
          · exact hmem
          · rw [List.mem_singleton.1 hmem, hnew] at hland
            cases hland
            exact absurd rfl hsame
        rw [if_neg hsame]
        refine ih htraced' hnoted' hqueue.of_append ?_ hmem
        rcases hstep.1.1 howed with howed | hother
        · exact howed
        · exact absurd hother hsame

/-- The snapshot of a pass holds every submission. -/
theorem Passing.holds {snapshot : FullSnapshot} (h : Passing pool snapshot acts) (htraced : Traced f acts)
    (hnoted : ∀ act ∈ acts, act.Noted) (hqueue : QueueKept acts) : Holds snapshot.ledger pool acts := by
  obtain ⟨before, attempts, since, rfl, hquiet, howed, hholds⟩ := h
  intro act hmem landed hland
  have hmem : act ∈ before := by
    rcases List.mem_append.1 hmem with hmem | hmem
    · exact hmem
    · rcases List.mem_cons.1 hmem with rfl | hmem
      · cases hland
      · rw [hquiet act hmem] at hland
        cases hland
  obtain ⟨last, hmark, hlatest⟩ := mark_latest htraced.of_append
    (fun act hact => hnoted act (List.mem_append_left _ hact)) hqueue.of_append howed hmem hland
  rw [hmark] at hholds
  cases last with
  | none => cases hholds
  | some known =>
    obtain ⟨ledger, rfl, hle⟩ := hlatest known rfl
    exact ⟨ledger, rfl, hle.trans (of_decide_eq_true hholds)⟩

theorem Justified.not_dropped (hkey : f.executor.filler ≠ none) (h : Justified f acts act) : act ≠ .dropped := by
  rintro rfl
  exact hkey h.2

/-- A submission that landed leaves its pool owed a pass, until it is cleared. -/
theorem owed_until_cleared (hkey : f.executor.filler ≠ none) {after : List FillerAct} {landed : Option Nat}
    (htraced : Traced f (acts ++ act :: after)) (hnoted : ∀ other ∈ acts ++ act :: after, other.Noted)
    (hland : act.landing = some (pool, landed)) (hclear : ∀ why, .cleared pool why ∉ after) :
    Owed pool (acts ++ act :: after) := by
  induction after using List.reverseRecOn with
  | nil => exact (owed_of_landed (hnoted act (by simp)) hland).1.2 (.inr rfl)
  | append_singleton after last ih =>
    have hsplit : acts ++ act :: (after ++ [last]) = acts ++ act :: after ++ [last] := by simp
    rw [hsplit] at htraced hnoted ⊢
    have howed := ih htraced.of_append (fun other hother => hnoted other (List.mem_append_left _ hother)) fun why hwhy =>
      hclear why (List.mem_append_left _ hwhy)
    rw [owed_concat]
    cases last with
    | dropped => exact absurd rfl ((htraced _ _ [] rfl trivial).not_dropped hkey)
    | cleared other why =>
      refine ⟨howed, ?_⟩
      rintro rfl
      exact hclear why (by simp)
    | _ => exact .inl howed

end Evidence

/-- **Unwinds are planned on evidence, and no landed fill is forgotten.** With a
filler key, every plan is made from a snapshot at or past every submission that
landed in its pool; a pool stops being pending only in a pass with such a
snapshot that found no position, built an idle plan, or in a dry run was
planned; and until then a pool that something landed in is pending. -/
theorem unwind_on_evidence (f : Filler) (armed : Bool) (feeReserve : UInt64) (env : Nat → FillerMoment) (fuel : Nat)
    (hkey : f.executor.filler ≠ none) (hqueue : QueueKept (f.run armed feeReserve env fuel).2.acts) :
    (∀ before pool snapshot balances answer after,
      (f.run armed feeReserve env fuel).2.acts = before ++ .planned pool snapshot balances answer :: after →
      PlannedFrom f pool snapshot balances answer ∧ Holds snapshot.ledger pool before) ∧
    (∀ before pool why after, (f.run armed feeReserve env fuel).2.acts = before ++ .cleared pool why :: after →
      ∃ snapshot, Passing pool snapshot before ∧ Holds snapshot.ledger pool before ∧ Found f pool snapshot before why) ∧
    ((∀ error, (f.run armed feeReserve env fuel).1 ≠ .err error) →
      (∀ pool, pool ∈ (f.run armed feeReserve env fuel).2.state.unwindPending ↔
        Owed pool (f.run armed feeReserve env fuel).2.acts) ∧
      .dropped ∉ (f.run armed feeReserve env fuel).2.acts ∧
      ∀ before act after pool landed, (f.run armed feeReserve env fuel).2.acts = before ++ act :: after →
        act.landing = some (pool, landed) → (∀ why, .cleared pool why ∉ after) →
        pool ∈ (f.run armed feeReserve env fuel).2.state.unwindPending) := by
  obtain ⟨htraced, hsound⟩ := run_traced f armed feeReserve env fuel
  generalize f.run armed feeReserve env fuel = ran at htraced hsound hqueue ⊢
  obtain ⟨result, s⟩ := ran
  dsimp only at htraced hsound hqueue ⊢
  refine ⟨fun before pool snapshot balances answer after hacts => ?_, fun before pool why after hacts => ?_, fun hok => ?_⟩
  · rw [hacts] at htraced hqueue
    obtain ⟨hnoted, -, hpassing, -, hplanned⟩ := htraced before _ after rfl trivial
    exact ⟨hplanned, hpassing.holds htraced.of_append hnoted hqueue.of_append⟩
  · rw [hacts] at htraced hqueue
    obtain ⟨hnoted, -, snapshot, hpassing, hfound⟩ := htraced before _ after rfl trivial
    exact ⟨snapshot, hpassing, hpassing.holds htraced.of_append hnoted hqueue.of_append, hfound⟩
  · have hsound := hsound hok
    refine ⟨hsound.pending, fun hmem => ?_, fun before act after pool landed hacts hland hclear => ?_⟩
    · obtain ⟨before, after, hacts⟩ := List.append_of_mem hmem
      exact absurd rfl ((htraced before _ after hacts trivial).not_dropped hkey)
    · refine (hsound.pending pool).2 ?_
      have hnoted := hsound.noted
      rw [hacts] at htraced hnoted ⊢
      exact owed_until_cleared hkey htraced hnoted hland hclear

/-! ### A small market -/

def marketPool : PoolConfig where
  address := "POOL"
  primaryAsset := "XLM"
  minPrimaryCollateral := 10000000000
  minHealthFactor := 11000000
  defaultProfitBps := 0
  forceFill := false
  fillObjective := .earliestProfitable
  supportedBid := ["USDC"]
  supportedLot := ["XLM"]
  profits := []

/-- A filler of one pool, live where it has a key. -/
def marketFiller (key : Option Submitter) : Filler where
  pools := [marketPool]
  config :=
    { dryRun := key.isNone, ownAddresses := ["FILLER"], hfSafetyMultiplier := 10000000, planIterations := 1
      replanLedgers := 10, replanNearLedgers := 5, highFeeProfitThreshold := 0, inventoryRefresh := 10
      nativeAsset := "XLM" }
  executor :=
    { submitter := key, dryRun := key.isNone
      submitOp := fun _ _ _ _ _ => .ok (.invokeHostFunction "submit" []) }
  startupDelayLedgers := 0

def marketKey : Submitter := { sampleSubmitter with address := "FILLER" }

def marketRow : TrackedAuction where
  pool := "POOL"
  account := "BORROWER"
  auctionType := .userLiquidation
  startLedger := 1000
  fillLedger := none
  percent := none
  bid := (∅ : BTreeMap String Int).insert "USDC" 600000000
  lot := (∅ : BTreeMap String Int).insert "XLM" 8000000000
  updatedLedger := 1000

/-- The auction the row tells of. -/
def marketAuction : AuctionData where
  bid := marketRow.bid
  lot := marketRow.lot
  block := 1000

/-- The market at a ledger, with the auction read at `entry`, the filler's
positions and what its wallet holds of each asset. -/
def marketReader (ledger entry : Nat) (auction : Option AuctionData) (positions : Positions)
    (funds : Except RpcError Int) : ReaderMoment where
  getLedgerEntries keys := .ok {
    latestLedger := if keys = [.auction "POOL" "BORROWER" .userLiquidation] then entry else ledger
    entries := [
      (.poolInstance "POOL", .ok { poolInstance := .ok ⟨"ADMIN", "BACKSTOP", "BLND", "Pool", "ORACLE", 0, .active, 4, 0⟩ }),
      (.reserveList "POOL", .ok { reserveList := .ok ["USDC", "XLM"] }),
      (.reserveConfig "POOL" "USDC", .ok { reserveConfig := .ok PoolReader.sampleReserveConfig }),
      (.reserveData "POOL" "USDC", .ok { reserveData := .ok ⟨SCALAR_12, SCALAR_12, SCALAR_7, 0, 10 ^ 12, 0, 0⟩ }),
      (.reserveConfig "POOL" "XLM", .ok { reserveConfig := .ok { PoolReader.sampleReserveConfig with index := 1 } }),
      (.reserveData "POOL" "XLM", .ok { reserveData := .ok ⟨SCALAR_12, SCALAR_12, SCALAR_7, 0, 10 ^ 12, 0, 0⟩ }),
      (.positions "POOL" "FILLER", .ok { positions := .ok positions })] ++
        (auction.map fun auction => (LedgerKey.auction "POOL" "BORROWER" .userLiquidation,
          .ok { auction := .ok auction })).toList }
  simulateView
    | .decimals _ => .ok ⟨ledger, .ok { decimals := .ok 7 }⟩
    | .lastprice _ _ => .ok ⟨ledger, .ok { priceData := .ok (some ⟨10 ^ 7, 0⟩) }⟩
    | .balance _ _ => funds.map fun amount => ⟨ledger, .ok { balance := .ok amount }⟩

/-- A tick of the market. The contract accepts what it is shown, and what is
sent lands two ledgers on. -/
def marketMoment (ledger : Nat) (reader : ReaderMoment) : FillerMoment where
  reader := reader
  exec :=
    { chain := { sampleTimeout with simulate := fun _ => .ok ⟨ledger, .success ⟨[], "AAAA", 50, none⟩⟩ }
      recordFill := .ok 1
      attachFillTx := .ok true
      queue := .ok (.succeeded ⟨Vector.replicate 32 8⟩ (ledger + 2) none) }
  openAuctions := .ok (Store.upsertAuction {} marketRow)
  setFillPlan := .ok true
  statement := .ok ()
  notify := .queued
  shutdown := false
  now := 0
  tick := some ⟨ledger, 0⟩

/-- Three ticks: the auction is open, it was filled and its debt is owed, and
the debt is repaid. A tick's questions end at `first` and `second`. -/
def marketTicks (funds : Except RpcError Int) (first second t : Nat) : FillerMoment :=
  let collateral := (∅ : BTreeMap Nat Int).insert 1 8000000000
  let liabilities := (∅ : BTreeMap Nat Int).insert 0 300000000
  if t < first then
    marketMoment 1300 (marketReader 1300 1300 (some marketAuction) {} funds)
  else if t < second then
    marketMoment 1303 (marketReader 1303 1303 none { collateral, liabilities } funds)
  else
    marketMoment 1306 (marketReader 1306 1306 none { collateral } funds)

/-- A live run with a funded wallet: a fill, an unwind and an idle pass. -/
def fundedActs : List FillerAct := ((marketFiller (some marketKey)).run true 0 (marketTicks (.ok 400000000) 30 51) 3).2.acts

/-- The debt is repaid in 1305, and the pool is cleared on a snapshot past it. -/
theorem fundedActs_landings : fundedActs.filterMap FillerAct.landing = [("POOL", some 1302), ("POOL", some 1305)] := by
  decide +kernel

/-- Whether an act clears a pool on an idle plan. -/
def clearsIdle : FillerAct → Bool
  | .cleared "POOL" (.idle _) => true
  | _ => false

theorem exists_cleared (acts : List FillerAct) (h : acts.any clearsIdle = true) :
    ∃ before plan after, acts = before ++ .cleared "POOL" (.idle plan) :: after := by
  obtain ⟨act, hmem, hact⟩ := List.any_eq_true.1 h
  obtain ⟨before, after, rfl⟩ := List.append_of_mem hmem
  unfold clearsIdle at hact
  split at hact
  · next plan => exact ⟨before, plan, after, rfl⟩
  · cases hact

/-- The pool of the funded run is cleared on a snapshot that holds its fill and
its unwind. -/
theorem unwind_on_evidence_funded : QueueKept fundedActs ∧
    ∃ before plan after snapshot, fundedActs = before ++ .cleared "POOL" (.idle plan) :: after ∧
      Passing "POOL" snapshot before ∧ Holds snapshot.ledger "POOL" before ∧ plan.isIdle = true := by
  have hqueue : QueueKept fundedActs :=
    .of_known [("POOL", 1302), ("POOL", 1305)] fundedActs_landings (by simp)
  obtain ⟨before, plan, after, hacts⟩ := exists_cleared fundedActs (by decide +kernel)
  obtain ⟨-, hcleared, -⟩ := unwind_on_evidence (marketFiller (some marketKey)) true 0
    (marketTicks (.ok 400000000) 30 51) 3 (by simp [marketFiller, Executor.filler]) hqueue
  obtain ⟨snapshot, hpassing, hholds, hidle, -⟩ := hcleared before "POOL" (.idle plan) after hacts
  exact ⟨hqueue, before, plan, after, snapshot, hacts, hpassing, hholds, hidle⟩

/-! ## Idle on a current wallet -/

/-- A ledger is at or past every submission known to have landed. -/
def Past (ledger : Nat) (acts : List FillerAct) : Prop :=
  ∀ act ∈ acts, ∀ pool known, act.landing = some (pool, some known) → known ≤ ledger

/-- The reads an idle plan can rest on: the wallet read made for it did not fail,
and each balance answered since the last submission that landed was read past
every one known to have landed. -/
def WalletCurrent (acts : List FillerAct) : Prop :=
  ∀ before pool snapshot balances plan after, acts = before ++ .planned pool snapshot balances (.ok plan) :: after →
    plan.isIdle = true → ¬ReadFailed before ∧
      ∀ earlier asset ledger amount since, before = earlier ++ .balance asset (.ok (ledger, amount)) :: since →
        Quiet since → Past ledger earlier

/-- The balances are of one read, of every reserve of the pool, each answered
past every submission known to have landed, that nothing landed after. -/
def CurrentBalances (acts : List FillerAct) (snapshot : FullSnapshot) (balances : BTreeMap String Int) : Prop :=
  ∃ (earlier : List FillerAct) (entries : List (String × Nat × Int)) (since : List FillerAct),
    acts = earlier ++ entries.map (fun entry => .balance entry.1 (.ok entry.2)) ++ since ∧ Quiet since ∧
    balances = entries.foldl (fun balances entry => balances.insert entry.1 entry.2.2) ∅ ∧
    (∀ asset ∈ snapshot.assetIndex.keys, asset ∈ entries.map (·.1)) ∧ ∀ entry ∈ entries, Past entry.2.1 earlier

/-- An idle plan of `pool` made of current balances ends the record. -/
def IdleOnCurrent (f : Filler) (pool : String) (plan : UnwindPlan) (acts : List FillerAct) : Prop :=
  plan.isIdle = true ∧ ∃ earlier snapshot balances, acts = earlier ++ [.planned pool snapshot balances (.ok plan)] ∧
    PlannedFrom f pool snapshot balances (.ok plan) ∧ CurrentBalances earlier snapshot balances

theorem WalletCurrent.of_append {acts more : List FillerAct} (h : WalletCurrent (acts ++ more)) : WalletCurrent acts := by
  intro before pool snapshot balances plan after hacts
  exact h before pool snapshot balances plan (after ++ more) (by simp [hacts])

/-- A read whose every answer is past what landed makes current balances. -/
theorem WalletAsRead.current {acts : List FillerAct} {snapshot : FullSnapshot} {balances : BTreeMap String Int}
    (h : WalletAsRead acts snapshot balances) (hanswered : ¬ReadFailed acts)
    (hpast : ∀ earlier asset ledger amount since, acts = earlier ++ .balance asset (.ok (ledger, amount)) :: since →
      Quiet since → Past ledger earlier) : CurrentBalances acts snapshot balances := by
  rcases h with ⟨assets, ⟨earlier, reads, since, rfl, ⟨entries, rfl, rfl, hbalances⟩, hquiet⟩, hcovered⟩ | hfailed
  · refine ⟨earlier, entries, since, rfl, hquiet, hbalances, hcovered, fun entry hentry => ?_⟩
    obtain ⟨first, rest, rfl⟩ := List.append_of_mem hentry
    have hland : Past entry.2.1 (earlier ++ first.map fun entry => .balance entry.1 (.ok entry.2)) := by
      refine hpast _ entry.1 entry.2.1 entry.2.2 (rest.map (fun entry => .balance entry.1 (.ok entry.2)) ++ since)
        (by simp) fun act hact => ?_
      rcases List.mem_append.1 hact with hact | hact
      · obtain ⟨other, -, rfl⟩ := List.mem_map.1 hact
        rfl
      · exact hquiet act hact
    exact fun act hact => hland act (List.mem_append_left _ hact)
  · exact absurd hfailed hanswered

theorem idle_current {f : Filler} {acts more : List FillerAct} {pool : String} {plan : UnwindPlan}
    (htraced : Traced f acts) (hreads : WalletCurrent (acts ++ more)) (h : Grounds f acts (.cleared pool (.idle plan))) :
    IdleOnCurrent f pool plan acts := by
  obtain ⟨-, snapshot, -, hidle, earlier, balances, rfl⟩ := h
  obtain ⟨-, -, -, hwallet, hplanned⟩ := htraced earlier _ [] rfl trivial
  obtain ⟨hanswered, hpast⟩ := hreads.of_append earlier pool snapshot balances plan [] rfl hidle
  exact ⟨hidle, earlier, snapshot, balances, rfl, hplanned, hwallet.current hanswered hpast⟩

/-- **A pool is declared unwound against a current wallet**, in a run whose idle
plans can rest on no failed read and on none behind what landed: then an idle plan
is made of balances read after, and past, every submission that landed, and so is
the report of the debt it leaves. -/
theorem idle_on_current_wallet (f : Filler) (armed : Bool) (feeReserve : UInt64) (env : Nat → FillerMoment) (fuel : Nat)
    (hreads : WalletCurrent (f.run armed feeReserve env fuel).2.acts) :
    (∀ before pool plan after,
      (f.run armed feeReserve env fuel).2.acts = before ++ .cleared pool (.idle plan) :: after →
      IdleOnCurrent f pool plan before) ∧
    ∀ before pool message delivery after,
      (f.run armed feeReserve env fuel).2.acts = before ++ .leftovers pool message delivery :: after →
      ∃ earlier plan, before = earlier ++ [.cleared pool (.idle plan)] ∧ IdleOnCurrent f pool plan earlier := by
  have htraced := (run_traced f armed feeReserve env fuel).1
  generalize (f.run armed feeReserve env fuel).2.acts = acts at htraced hreads ⊢
  refine ⟨fun before pool plan after hacts => ?_, fun before pool message delivery after hacts => ?_⟩
  · rw [hacts] at htraced hreads
    exact idle_current htraced.of_append hreads (htraced before _ after rfl trivial).2
  · rw [hacts] at htraced hreads
    obtain ⟨earlier, plan, rfl⟩ := (htraced before _ after rfl trivial).2
    have hbefore : Traced f (earlier ++ [.cleared pool (.idle plan)]) := htraced.of_append
    exact ⟨earlier, plan, rfl, idle_current hbefore.of_append hreads.of_append (hbefore earlier _ [] rfl trivial).2⟩

/-- Whether a balance is read past what landed before it. -/
def readsPast (earlier later : FillerAct) : Bool :=
  match later, earlier.landing with
  | .balance _ (.ok (ledger, _)), some (_, some known) => decide (known ≤ ledger)
  | _, _ => true

/-- Whether an act is no plan made right after a failed read. -/
def plansAnswered (earlier later : FillerAct) : Bool :=
  match earlier, later with
  | .balance _ (.error _), .planned _ _ _ _ => false
  | _, _ => true

theorem WalletCurrent.of_pairwise {acts : List FillerAct}
    (hchain : acts.IsChain fun earlier later => plansAnswered earlier later = true)
    (hpair : acts.Pairwise fun earlier later => readsPast earlier later = true) : WalletCurrent acts := by
  rintro before pool snapshot balances plan after rfl -
  refine ⟨?_, ?_⟩
  · rintro ⟨earlier, asset, error, rfl⟩
    rw [List.append_assoc, List.singleton_append, List.isChain_append_cons_cons] at hchain
    cases hchain.2.1
  · rintro earlier asset ledger amount since rfl - act hact pool known hland
    have hpast := (List.pairwise_append.1 (List.pairwise_append.1 hpair).1).2.2 act hact
      (.balance asset (.ok (ledger, amount))) (by simp)
    simpa [readsPast, hland] using hpast

/-- The market with a wallet that times out in the first tick. -/
def recoveringTicks (first second t : Nat) : FillerMoment :=
  marketTicks (if t < first then .error (.transport "operation timed out") else .ok 400000000) first second t

def recoveringActs : List FillerAct := ((marketFiller (some marketKey)).run true 0 (recoveringTicks 28 49) 3).2.acts

/-- The read made for the fill failed; the idle plan rests on none but those after
the debt was repaid. -/
theorem idle_on_current_wallet_recovering : WalletCurrent recoveringActs ∧
    recoveringActs.filterMap FillerAct.landing = [("POOL", some 1302), ("POOL", some 1305)] ∧
    ∃ before plan after, recoveringActs = before ++ .cleared "POOL" (.idle plan) :: after ∧
      IdleOnCurrent (marketFiller (some marketKey)) "POOL" plan before := by
  have hreads : WalletCurrent recoveringActs := .of_pairwise (by decide +kernel) (by decide +kernel)
  obtain ⟨before, plan, after, hacts⟩ := exists_cleared recoveringActs (by decide +kernel)
  have hidle := (idle_on_current_wallet (marketFiller (some marketKey)) true 0 (recoveringTicks 28 49) 3 hreads).1
    before "POOL" plan after hacts
  exact ⟨hreads, by decide +kernel, before, plan, after, hacts, hidle⟩

/-- The same market with a wallet whose every read times out. -/
def unreadActs : List FillerAct :=
  ((marketFiller (some marketKey)).run true 0 (marketTicks (.error (.transport "operation timed out")) 28 100) 2).2.acts

/-- Whether an act is no balance, and a plan one of a pool with a reserve. -/
def plansUnread : FillerAct → Bool
  | .balance _ (.ok _) => false
  | .planned _ snapshot _ _ => decide ("USDC" ∈ snapshot.assetIndex.keys)
  | _ => true

/-- A fill lands in 1302, and its pool is cleared, its debt reported as unpayable,
on a wallet that was never read. -/
theorem idle_on_unread_wallet : unreadActs.filterMap FillerAct.landing = [("POOL", some 1302)] ∧
    unreadActs.any (fun act => match act with
      | .leftovers "POOL" "debt the wallet cannot repay remains in POOL: USDC" .queued => true
      | _ => false) = true ∧
    ∃ before plan after, unreadActs = before ++ .cleared "POOL" (.idle plan) :: after ∧
      ¬IdleOnCurrent (marketFiller (some marketKey)) "POOL" plan before := by
  refine ⟨by decide +kernel, by decide +kernel, ?_⟩
  obtain ⟨before, plan, after, hacts⟩ := exists_cleared unreadActs (by decide +kernel)
  refine ⟨before, plan, after, hacts, ?_⟩
  have hunread : unreadActs.all plansUnread = true := by decide +kernel
  rw [hacts, List.all_eq_true] at hunread
  rintro ⟨-, earlier, snapshot, balances, rfl, -, first, entries, since, rfl, -, -, hcovered, -⟩
  have hplan := hunread (.planned "POOL" snapshot balances (.ok plan)) (by simp)
  obtain ⟨entry, hentry, -⟩ := List.mem_map.1 (hcovered "USDC" (of_decide_eq_true hplan))
  have hread := hunread (.balance entry.1 (.ok entry.2)) (by simp [hentry])
  cases hread

/-! ## Fills of one ledger -/

/-- The entries of a walk, and the snapshot after them, are of one ledger, and it
holds what landed in the pool. -/
def ReadTogether (acts : List FillerAct) : Prop :=
  ∀ earlier pool rows reads attempts snapshot after,
    acts = earlier ++ .opened pool rows :: reads ++ .snapshot .walk pool attempts snapshot :: after →
    (∀ act ∈ reads, act.isOpened = false) →
    (∀ account ledger auction, .entry pool account (.ok (some (ledger, auction))) ∈ reads → ledger = snapshot.ledger) ∧
      Holds snapshot.ledger pool (earlier ++ .opened pool rows :: reads)

/-- A draft of the planner's, from an entry and a snapshot of one ledger that
holds what landed in the pool. -/
def OfOneLedger (f : Filler) (pool : PoolConfig) (auction : AuctionData) (plan : FillPlan) (acts : List FillerAct) : Prop :=
  ∃ attempts snapshot tick context percent wallet,
    .entry plan.pool plan.user (.ok (some (snapshot.ledger, auction))) ∈ acts ∧
    .snapshot .walk plan.pool attempts snapshot ∈ acts ∧ PoolReader.MadeAt snapshot attempts ∧
    f.poolContext pool snapshot tick = some context ∧
    planFill (f.terms context auction) (inputs context plan.user auction percent wallet) = .ok (.fill plan.draft) ∧
    Holds snapshot.ledger plan.pool acts

/-- **Fill plans come from one ledger that holds every earlier landing**, in a
run whose walks read one. -/
theorem fills_of_one_ledger (f : Filler) (armed : Bool) (feeReserve : UInt64) (env : Nat → FillerMoment) (fuel : Nat)
    (hreads : ReadTogether (f.run armed feeReserve env fuel).2.acts) :
    ∀ before pool auction plan done answer after,
      (f.run armed feeReserve env fuel).2.acts = before ++ .fill pool auction plan done answer :: after →
      OfOneLedger f pool auction plan before := by
  intro before pool auction plan done answer after hacts
  have htraced := (run_traced f armed feeReserve env fuel).1
  rw [hacts] at htraced hreads
  obtain ⟨-, -, -, row, snapshot, tick, context, percent, wallet, hwalking, hcontext, hpool, huser, hplan⟩ :=
    htraced before _ after rfl trivial
  obtain ⟨mid, earlier, rows, reads, attempts, since, hopened, rfl, hmade, hquiet⟩ := hwalking
  obtain ⟨-, haddress, -, -, ledger, hentry⟩ := hopened.kept (row, auction) (by simp)
  dsimp only at haddress hentry
  rw [haddress] at hentry
  obtain ⟨hone, hholds⟩ := hreads earlier pool.address rows reads attempts snapshot
    (since ++ .fill pool auction plan done answer :: after) (by simp [hopened.acts_eq]) hopened.same
  obtain rfl := hone row.account ledger auction hentry
  rw [hopened.acts_eq]
  refine ⟨attempts, snapshot, tick, context, percent, wallet, ?_, ?_, hmade, hcontext, by rw [huser]; exact hplan, ?_⟩
  · rw [hpool, haddress, huser]
    simp [hentry]
  · rw [hpool, haddress]
    simp
  · rw [hpool, haddress]
    refine hholds.append fun act hact => ?_
    rcases List.mem_cons.1 hact with rfl | hact
    · rfl
    · exact hquiet act hact

/-- A dry run of one tick, with the auction read at `entry`. -/
def dryActs (entry : Nat) (auction : AuctionData) : List FillerAct :=
  ((marketFiller none).run false 0 (fun _ => marketMoment 1300 (marketReader 1300 entry (some auction) {} (.ok 0))) 1).2.acts

def isFill : FillerAct → Bool
  | .fill _ _ _ _ _ => true
  | _ => false

/-- A fill of some kind, and what is around it. -/
theorem exists_fill (acts : List FillerAct) (kind : FillerAct → Bool)
    (h : acts.any (fun act => isFill act && kind act) = true) :
    ∃ before pool auction plan done answer after, acts = before ++ .fill pool auction plan done answer :: after ∧
      kind (.fill pool auction plan done answer) = true := by
  obtain ⟨act, hmem, hact⟩ := List.any_eq_true.1 h
  rw [Bool.and_eq_true] at hact
  obtain ⟨hfill, hkind⟩ := hact
  obtain ⟨before, after, rfl⟩ := List.append_of_mem hmem
  unfold isFill at hfill
  split at hfill
  · next pool auction plan done answer => exact ⟨before, pool, auction, plan, done, answer, after, rfl, hkind⟩
  · cases hfill

/-- Whether an act is read at the ledger of its walk's snapshot. -/
def entryAt (ledger : Nat) : FillerAct → Bool
  | .entry _ _ (.ok (some read)) => decide (read.1 = ledger)
  | _ => true

/-- Whether an act landed in another pool, or by `ledger`. -/
def landedBy (pool : String) (ledger : Nat) (act : FillerAct) : Bool :=
  match act.landing with
  | some (other, landed) => decide (other ≠ pool) || landed.any (· ≤ ledger)
  | none => true

/-- Whether a walk's snapshot, if the act is one, is of the ledger its entries are
of and holds what landed before. -/
def readsTogether (before : List FillerAct) : FillerAct → Bool
  | .snapshot .walk pool _ snapshot =>
    (before.reverse.takeWhile fun act => !act.isOpened).all (entryAt snapshot.ledger) &&
      before.all (landedBy pool snapshot.ledger)
  | _ => true

/-- Whether that is so of each act. -/
def allTogether (before : List FillerAct) : List FillerAct → Bool
  | [] => true
  | act :: after => readsTogether before act && allTogether (before ++ [act]) after

theorem readsTogether_of_all {done acts before after : List FillerAct} {act : FillerAct}
    (h : allTogether done acts = true) (hacts : acts = before ++ act :: after) :
    readsTogether (done ++ before) act = true := by
  induction before generalizing done acts with
  | nil =>
    rw [hacts, List.nil_append, allTogether, Bool.and_eq_true] at h
    rw [List.append_nil]
    exact h.1
  | cons first before ih =>
    rw [hacts, List.cons_append, allTogether, Bool.and_eq_true] at h
    have hrest := ih h.2 rfl
    rwa [List.append_assoc, List.singleton_append] at hrest

/-- The acts since a walk was opened are its reads. -/
theorem takeWhile_reads {earlier reads : List FillerAct} {pool : String} {rows : List TrackedAuction}
    (hreads : ∀ act ∈ reads, act.isOpened = false) :
    ((earlier ++ .opened pool rows :: reads).reverse.takeWhile fun act => !act.isOpened) = reads.reverse := by
  rw [List.reverse_append, List.reverse_cons, List.append_assoc, List.takeWhile_append_of_pos fun act hact => ?_]
  · simp [FillerAct.isOpened]
  · rw [hreads act (List.mem_reverse.1 hact)]
    rfl

theorem ReadTogether.of_all {acts : List FillerAct} (h : allTogether [] acts = true) : ReadTogether acts := by
  intro earlier pool rows reads attempts snapshot after hacts hreads
  have hboth := readsTogether_of_all h hacts
  rw [List.nil_append, readsTogether, takeWhile_reads hreads, Bool.and_eq_true, List.all_eq_true, List.all_eq_true] at hboth
  refine ⟨fun account ledger auction hentry => ?_, fun act hact landed hland => ?_⟩
  · exact of_decide_eq_true (hboth.1 (.entry pool account (.ok (some (ledger, auction)))) (List.mem_reverse.2 hentry))
  · have hby := hboth.2 act hact
    simp only [landedBy, hland, ne_eq, not_true_eq_false, decide_false, Bool.false_or] at hby
    cases landed with
    | none => cases hby
    | some known => exact ⟨known, rfl, of_decide_eq_true hby⟩

/-- The market's account, liquidated again while its first auction's fill lands. -/
def nextAuction : AuctionData := { marketAuction with block := 1001 }

/-- Two ticks with an auction to fill in each; the first one's questions end at
`first`. -/
def refillTicks (first t : Nat) : FillerMoment :=
  if t < first then
    marketMoment 1300 (marketReader 1300 1300 (some marketAuction) {} (.ok 400000000))
  else
    marketMoment 1303 (marketReader 1303 1303 (some nextAuction) {} (.ok 400000000))

/-- A live run of both. -/
def refillActs : List FillerAct := ((marketFiller (some marketKey)).run true 0 (refillTicks 30) 2).2.acts

theorem refillActs_landings : refillActs.filterMap FillerAct.landing = [("POOL", some 1302), ("POOL", some 1305)] := by
  decide +kernel

/-- Both fills land, and the second draft is of a ledger that holds the first. -/
theorem fills_of_one_ledger_live : ReadTogether refillActs ∧
    ∃ before pool auction plan done answer after, refillActs = before ++ .fill pool auction plan done answer :: after ∧
      before.filterMap FillerAct.landing = [("POOL", some 1302)] ∧
      (FillerAct.fill pool auction plan done answer).landing = some ("POOL", some 1305) ∧
      OfOneLedger (marketFiller (some marketKey)) pool auction plan before := by
  have hreads : ReadTogether refillActs := .of_all (by decide +kernel)
  obtain ⟨before, pool, auction, plan, done, answer, after, hacts, hsecond⟩ :=
    exists_fill refillActs (fun act => decide (act.landing = some ("POOL", some 1305))) (by decide +kernel)
  have hsecond := of_decide_eq_true hsecond
  have hone := fills_of_one_ledger (marketFiller (some marketKey)) true 0 (refillTicks 30) 2 hreads before pool auction plan
    done answer after hacts
  have hlandings := refillActs_landings
  rw [hacts, List.filterMap_append, List.filterMap_cons_some hsecond] at hlandings
  have hfirst : before.filterMap FillerAct.landing = [("POOL", some 1302)] := by
    generalize before.filterMap FillerAct.landing = landings at hlandings
    cases landings with
    | nil => simp at hlandings
    | cons first rest =>
      cases rest with
      | nil => simp_all
      | cons other rest => simp at hlandings
  exact ⟨hreads, before, pool, auction, plan, done, answer, after, hacts, hfirst, hsecond, hone⟩

/-- Whether the entries are read at `entry` and the snapshots at `ledger`. -/
def readsAt (entry ledger : Nat) : FillerAct → Bool
  | .entry _ _ (.ok (some read)) => decide (read.1 = entry)
  | .snapshot .walk _ _ snapshot => decide (snapshot.ledger = ledger)
  | _ => true

/-- The pool closed a ledger after the auction was read, and the draft is made of
both. -/
theorem fill_of_two_ledgers : ∃ before pool auction plan done answer after,
    dryActs 1299 marketAuction = before ++ .fill pool auction plan done answer :: after ∧
      ¬OfOneLedger (marketFiller none) pool auction plan before := by
  obtain ⟨before, pool, auction, plan, done, answer, after, hacts, -⟩ :=
    exists_fill (dryActs 1299 marketAuction) (fun _ => true) (by decide +kernel)
  refine ⟨before, pool, auction, plan, done, answer, after, hacts, ?_⟩
  have hall : (dryActs 1299 marketAuction).all (readsAt 1299 1300) = true := by decide +kernel
  rw [hacts, List.all_eq_true] at hall
  rintro ⟨attempts, snapshot, -, -, -, -, hentry, hsnapshot, -⟩
  have hearly : snapshot.ledger = 1299 := of_decide_eq_true (hall _ (List.mem_append_left _ hentry))
  have hlate : snapshot.ledger = 1300 := of_decide_eq_true (hall _ (List.mem_append_left _ hsnapshot))
  omega

/-! ## Supported fills -/

/-- Every asset of an auction is one its row names or one the pool supports. -/
def NoneNew (supported : List String) (row auction : BTreeMap String Int) : Prop :=
  ∀ asset ∈ auction.keys, asset ∈ row.keys ∨ covers supported [asset] = true

/-- What the chain holds for a supported row of a walk names nothing that the
row does not and the pool does not support. -/
def RowsCurrent (f : Filler) (acts : List FillerAct) : Prop :=
  ∀ pool ∈ f.pools, ∀ earlier rows reads after, acts = earlier ++ .opened pool.address rows :: reads ++ after →
    (∀ act ∈ reads, act.isOpened = false) → ∀ row ∈ rows, row.auctionType = .userLiquidation →
      pool.supports row.bid.keys row.lot.keys = true → ∀ ledger auction,
      .entry pool.address row.account (.ok (some (ledger, auction))) ∈ reads →
      NoneNew pool.supportedBid row.bid auction.bid ∧ NoneNew pool.supportedLot row.lot auction.lot

theorem NoneNew.covers {supported : List String} {row auction : BTreeMap String Int}
    (h : NoneNew supported row auction) (hrow : BlendLiquidator.covers supported row.keys = true) :
    BlendLiquidator.covers supported auction.keys = true := by
  simp only [BlendLiquidator.covers, Bool.or_eq_true, decide_eq_true_eq, List.all_eq_true] at hrow ⊢
  by_cases hall : "*" ∈ supported
  · exact .inl hall
  refine .inr fun asset hasset => ?_
  rcases h asset hasset with hnamed | hcovered
  · exact (hrow.resolve_left hall) asset hnamed
  · simpa [BlendLiquidator.covers, hall] using hcovered

/-- **Only supported auctions are filled**, in a run whose rows name what the
chain does or the pool supports it. -/
theorem fills_supported (f : Filler) (armed : Bool) (feeReserve : UInt64) (env : Nat → FillerMoment) (fuel : Nat)
    (hrows : RowsCurrent f (f.run armed feeReserve env fuel).2.acts) :
    ∀ before pool auction plan done answer after,
      (f.run armed feeReserve env fuel).2.acts = before ++ .fill pool auction plan done answer :: after →
      pool ∈ f.pools ∧ plan.pool = pool.address ∧ pool.supports auction.bid.keys auction.lot.keys = true := by
  intro before pool auction plan done answer after hacts
  have htraced := (run_traced f armed feeReserve env fuel).1
  rw [hacts] at htraced hrows
  obtain ⟨-, -, hpools, row, snapshot, tick, context, percent, wallet, hwalking, -, hpool, -, -⟩ :=
    htraced before _ after rfl trivial
  obtain ⟨mid, earlier, rows, reads, attempts, since, hopened, rfl, -, -⟩ := hwalking
  obtain ⟨hrow, haddress, htype, hsupports, ledger, hentry⟩ := hopened.kept (row, auction) (by simp)
  dsimp only at hrow haddress htype hsupports hentry
  rw [haddress] at hentry
  obtain ⟨hbid, hlot⟩ := hrows pool hpools earlier rows reads _ (by simp [hopened.acts_eq]; rfl) hopened.same row hrow
    htype hsupports ledger auction hentry
  simp only [PoolConfig.supports, Bool.and_eq_true] at hsupports ⊢
  exact ⟨hpools, hpool.trans haddress, hbid.covers hsupports.1, hlot.covers hsupports.2⟩

/-- Whether the chain's auctions are of the assets the pool supports. -/
def readsSupported : FillerAct → Bool
  | .entry _ _ (.ok (some read)) => decide (read.2.bid.keys = ["USDC"] ∧ read.2.lot.keys = ["XLM"])
  | _ => true

theorem RowsCurrent.of_all {acts : List FillerAct} (hall : acts.all readsSupported = true) :
    RowsCurrent (marketFiller none) acts := by
  rintro pool hpool earlier rows reads after rfl - row - - - ledger auction hentry
  rw [List.mem_singleton.1 hpool] at hentry ⊢
  have hkeys := List.all_eq_true.1 hall (.entry marketPool.address row.account (.ok (some (ledger, auction))))
    (by simp [hentry])
  obtain ⟨hbid, hlot⟩ := of_decide_eq_true hkeys
  refine ⟨fun asset hasset => .inr ?_, fun asset hasset => .inr ?_⟩
  · rw [hbid, List.mem_singleton] at hasset
    rw [hasset]
    decide
  · rw [hlot, List.mem_singleton] at hasset
    rw [hasset]
    decide

/-- The auction the row tells of is the chain's. -/
theorem fills_supported_dry : RowsCurrent (marketFiller none) (dryActs 1300 marketAuction) ∧
    ∃ before pool auction plan done answer after,
      dryActs 1300 marketAuction = before ++ .fill pool auction plan done answer :: after ∧
        pool.supports auction.bid.keys auction.lot.keys = true := by
  have hrows : RowsCurrent (marketFiller none) (dryActs 1300 marketAuction) := .of_all (by decide +kernel)
  obtain ⟨before, pool, auction, plan, done, answer, after, hacts, -⟩ :=
    exists_fill (dryActs 1300 marketAuction) (fun _ => true) (by decide +kernel)
  have hfill := fills_supported (marketFiller none) false 0
    (fun _ => marketMoment 1300 (marketReader 1300 1300 (some marketAuction) {} (.ok 0))) 1 hrows before pool auction plan
    done answer after hacts
  exact ⟨hrows, before, pool, auction, plan, done, answer, after, hacts, hfill.2.2⟩

/-- The account's next auction, with the sides' assets exchanged. -/
def exchangedAuction : AuctionData where
  bid := (∅ : BTreeMap String Int).insert "XLM" 600000000
  lot := (∅ : BTreeMap String Int).insert "USDC" 8000000000
  block := 1000

/-- Whether a fill is of an auction that its pool supports on neither side. -/
def fillsUnsupported : FillerAct → Bool
  | .fill pool auction _ _ _ => !covers pool.supportedBid auction.bid.keys && !covers pool.supportedLot auction.lot.keys
  | _ => false

/-- The row still tells of the account's last auction, and the next one is
filled, its assets supported on neither side. -/
theorem unsupported_fill : ∃ before pool auction plan done answer after,
    dryActs 1300 exchangedAuction = before ++ .fill pool auction plan done answer :: after ∧
      covers pool.supportedBid auction.bid.keys = false ∧ covers pool.supportedLot auction.lot.keys = false := by
  obtain ⟨before, pool, auction, plan, done, answer, after, hacts, hcovers⟩ :=
    exists_fill (dryActs 1300 exchangedAuction) fillsUnsupported (by decide +kernel)
  simp only [fillsUnsupported, Bool.and_eq_true, Bool.not_eq_true'] at hcovers
  exact ⟨before, pool, auction, plan, done, answer, after, hacts, hcovers⟩

end Filler

end BlendLiquidator
