/-
The pool refuses a whole submission over one request that mints or burns
nothing. This settles which drafts hold such a request: a repay of dust, a
wallet balance worth less than one d-token, is the only one either planner
sends. A supply is guarded against a zero mint, a withdrawal rounds what it
burns up, and each collateral is withdrawn once, while it is held.

The loops are followed with what each pass adds (`foldlM_iff`): a repay adds
that its balance is no dust, every other pass adds nothing.
-/
import BlendLiquidator.UnwindSound

namespace BlendLiquidator

open Results IntDiv

/-! ## What a request moves -/

/-- The tokens a request mints or burns of the sender's positions. -/
def tokensMoved (pool : PoolReserves) (p : Positions) : Request → Except MathError Int
  | .repay asset amount => do
    let (index, reserve) ← pool.listed asset
    pure (min (← reserve.toDTokenDown amount) (p.liabilities.getD index 0))
  | .withdraw asset amount => do
    let (index, reserve) ← pool.listed asset
    pure (min (← reserve.toBTokenUp amount) (p.collateral.getD index 0))
  | .withdrawAll asset => do
    let (index, _) ← pool.listed asset
    pure (p.collateral.getD index 0)
  | .supplyCollateral asset amount => do
    let (_, reserve) ← pool.listed asset
    reserve.toBTokenDown amount

/-- The request mints or burns at least one token. -/
def Moves (pool : PoolReserves) (p : Positions) (request : Request) : Prop :=
  ∃ tokens, tokensMoved pool p request = .ok tokens ∧ 1 ≤ tokens

/-- Each request moves something where the ones before it leave the
positions. -/
def AllMove (pool : PoolReserves) : Positions → List Request → Prop
  | _, [] => True
  | p, request :: rest =>
    Moves pool p request ∧ ∃ next, applyRequest pool p request = .ok next ∧ AllMove pool next rest

theorem allMove_concat {pool : PoolReserves} {mid next : Positions} {request : Request}
    (hnext : applyRequest pool mid request = .ok next) : ∀ {requests : List Request} {p : Positions},
    requests.foldlM (applyRequest pool) p = .ok mid →
      (AllMove pool p (requests ++ [request]) ↔ AllMove pool p requests ∧ Moves pool mid request)
  | [], p, hrun => by
    rw [List.foldlM_nil, pure_ok_iff] at hrun
    subst hrun
    simp only [List.nil_append, AllMove, true_and]
    exact ⟨fun h => h.1, fun h => ⟨h, next, hnext, trivial⟩⟩
  | first :: rest, p, hrun => by
    rw [List.foldlM_cons, bind_ok_iff] at hrun
    obtain ⟨after, hafter, hrest⟩ := hrun
    have ih := allMove_concat hnext hrest
    simp only [List.cons_append, AllMove]
    constructor
    · rintro ⟨hfirst, after', hafter', hall⟩
      obtain rfl : after = after' := Except.ok.inj (hafter.symm.trans hafter')
      exact ⟨⟨hfirst, after, hafter, (ih.1 hall).1⟩, (ih.1 hall).2⟩
    · rintro ⟨⟨hfirst, after', hafter', hall⟩, hlast⟩
      obtain rfl : after = after' := Except.ok.inj (hafter.symm.trans hafter')
      exact ⟨hfirst, after, hafter, ih.2 ⟨hall, hlast⟩⟩

/-- One more request, and it moves something. -/
theorem allMove_concat_of {pool : PoolReserves} {p mid next : Positions} {requests : List Request}
    {request : Request} (hrun : requests.foldlM (applyRequest pool) p = .ok mid)
    (hnext : applyRequest pool mid request = .ok next) (hmoves : Moves pool mid request) :
    AllMove pool p (requests ++ [request]) ↔ AllMove pool p requests := by
  rw [allMove_concat hnext hrun]
  exact and_iff_left hmoves

/-! ## Dust -/

/-- A balance worth less than one d-token. -/
def Reserve.Dust (r : Reserve) (held : Int) : Prop := 0 < held ∧ held * SCALAR_12 < r.data.dRate

instance (r : Reserve) (held : Int) : Decidable (r.Dust held) :=
  inferInstanceAs (Decidable (_ ∧ _))

/-- A repay of a debt of one d-token or more burns one unless the wallet it
was capped at is dust. -/
theorem toDTokenDown_repay {reserve : Reserve} {dTokens owed wanted held tokens : Int}
    (hrate : 0 < reserve.data.dRate) (hdebt : 0 < dTokens) (hheld : 0 < held)
    (howed : reserve.toAssetFromDToken dTokens = .ok owed) (hwanted : withAllowance owed = .ok wanted)
    (ht : reserve.toDTokenDown (min wanted held) = .ok tokens) : 1 ≤ tokens ↔ ¬reserve.Dust held := by
  rw [Reserve.toAssetFromDToken, mulCeil_eq SCALAR_12_pos] at howed
  have howed := narrow_ok howed
  rw [Reserve.toDTokenDown, divFloor_eq hrate] at ht
  rw [narrow_ok ht, Int.le_ediv_iff_mul_le hrate, Int.one_mul]
  have hone : reserve.data.dRate ≤ dTokens * reserve.data.dRate := le_mul_of_one_le_left hrate.le hdebt
  have hcover : reserve.data.dRate ≤ owed * SCALAR_12 := by
    rw [howed]
    exact hone.trans (le_ceilDiv_mul SCALAR_12_pos)
  have howed0 : 0 ≤ owed := by
    rw [howed]
    exact ceilDiv_nonneg SCALAR_12_pos (hrate.le.trans hone)
  have hwant : owed * SCALAR_12 ≤ wanted * SCALAR_12 :=
    Int.mul_le_mul_of_nonneg_right (withAllowance_lt howed0 hwanted).le SCALAR_12_pos.le
  simp only [Reserve.Dust]
  by_cases hmin : wanted ≤ held
  · have hmore : wanted * SCALAR_12 ≤ held * SCALAR_12 := Int.mul_le_mul_of_nonneg_right hmin SCALAR_12_pos.le
    rw [min_eq_left hmin]
    omega
  · rw [min_eq_right (by omega)]
    omega

/-! ## The fill's requests -/

/-- What a caller's view of the pool and of the filler always is. -/
structure FillInputs.WellFormed (inputs : FillInputs) : Prop where
  collateral_nonneg : ∀ (index : Nat) (held : Int), inputs.filler.collateral[index]? = some held → 0 ≤ held
  liabilities_nonneg : ∀ (index : Nat) (owed : Int), inputs.filler.liabilities[index]? = some owed → 0 ≤ owed
  rates_pos : ∀ (index : Nat) (reserve : Reserve), inputs.reserves[index]? = some reserve →
    0 < reserve.data.bRate ∧ 0 < reserve.data.dRate
  asset_index : ∀ (asset : String) (index : Nat), inputs.assetIndex[asset]? = some index →
    ∃ reserve : Reserve, inputs.reserves[index]? = some reserve ∧ reserve.asset = asset

/-- Two assets have two indices. -/
theorem FillInputs.WellFormed.index_ne {inputs : FillInputs} (hwf : inputs.WellFormed) {asset other : String}
    {index index' : Nat} (h : inputs.assetIndex[asset]? = some index)
    (h' : inputs.assetIndex[other]? = some index') (hne : asset ≠ other) : index ≠ index' := by
  rintro rfl
  obtain ⟨reserve, hr, rfl⟩ := hwf.asset_index asset index h
  obtain ⟨reserve', hr', rfl⟩ := hwf.asset_index other index h'
  rw [hr] at hr'
  cases hr'
  exact hne rfl

theorem reserveFor_ok {inputs : FillInputs} {asset : String} {index : Nat} {reserve : Reserve}
    (h : reserveFor inputs asset = .ok (index, reserve)) :
    inputs.assetIndex[asset]? = some index ∧ inputs.reserves[index]? = some reserve := by
  simp only [reserveFor] at h
  split at h
  · cases h
  · next found hfound =>
    simp only [bind_ok_iff, pure_ok_iff, Prod.mk.injEq] at h
    obtain ⟨reserve', hr, rfl, rfl⟩ := h
    exact ⟨hfound, reserveAt_ok_iff.1 hr⟩

/-- What the take-over loops leave of positive entries: nothing lowered, and
every asset named held. -/
theorem takeOver_held {inputs : FillInputs} : ∀ {entries : List (String × Int)} {map map' : BTreeMap Nat Int},
    (∀ entry ∈ entries, 0 < entry.2) → (∀ index, 0 ≤ map.getD index 0) →
    entries.foldlM (takeOver inputs) map = .ok map' →
      (∀ index, map.getD index 0 ≤ map'.getD index 0) ∧
        ∀ entry ∈ entries, ∀ index, inputs.assetIndex[entry.1]? = some index → 0 < map'.getD index 0
  | [], map, map', _, _, h => by
    rw [List.foldlM_nil, pure_ok_iff] at h
    subst h
    exact ⟨fun _ => le_rfl, fun entry he => by simp at he⟩
  | first :: rest, map, map', hpos, h0, h => by
    rw [List.foldlM_cons, bind_ok_iff] at h
    obtain ⟨mid, hmid, hrest⟩ := h
    have hfirst := hpos first (by simp)
    simp only [takeOver, bind_ok_iff] at hmid
    obtain ⟨⟨index, reserve⟩, hr, hmid⟩ := hmid
    have hmid := addTo_ok hmid
    rw [if_neg (by omega)] at hmid
    have hgetD : ∀ i, mid.getD i 0 = if index = i then map.getD index 0 + first.2 else map.getD i 0 := by
      intro i
      rw [hmid, TreeMaps.getD_insert]
    have hraised : ∀ i, map.getD i 0 ≤ mid.getD i 0 := by
      intro i
      rw [hgetD]
      split
      · next heq => subst heq; omega
      · exact le_rfl
    obtain ⟨hmono, hheld⟩ := takeOver_held (fun entry he => hpos entry (by simp [he]))
      (fun i => (h0 i).trans (hraised i)) hrest
    refine ⟨fun i => (hraised i).trans (hmono i), fun entry he i hi => ?_⟩
    rcases List.mem_cons.1 he with rfl | he
    · obtain rfl : index = i := Option.some.inj ((reserveFor_ok hr).1.symm.trans hi)
      have hown := hgetD index
      rw [if_pos rfl] at hown
      have hbefore := h0 index
      have hafter := hmono index
      omega
    · exact hheld entry he i hi

def FillAction.requests (actions : List FillAction) : List Request := actions.map FillAction.request

theorem FillAction.requests_concat (actions : List FillAction) (action : FillAction) :
    requests (actions ++ [action]) = requests actions ++ [action.request] := List.map_append

theorem Ledgered.run {inputs : FillInputs} {start : Positions} {w : Working} (hw : Ledgered inputs start w) :
    (FillAction.requests w.actions).foldlM (applyRequest inputs.pool) start = .ok w.positions := by
  rw [FillAction.requests, List.foldlM_map]
  exact hw.replayed

/-- A bid asset the filler's wallet holds no dust of. -/
def FillInputs.Repayable (inputs : FillInputs) (asset : String) : Prop :=
  ∀ index reserve, reserveFor inputs asset = .ok (index, reserve) →
    ¬reserve.Dust (inputs.wallet.getD asset 0)

/-- The repay loop's invariant: of every bid asset still to come the wallet
is as read and something is owed. -/
structure ToRepay (inputs : FillInputs) (start : Positions) (rest : List (String × Int)) (w : Working) :
    Prop where
  ledgered : Ledgered inputs start w
  nodup : (rest.map Prod.fst).Nodup
  positive : ∀ entry ∈ rest, 0 < entry.2
  wallet : ∀ entry ∈ rest, w.wallet.getD entry.1 0 = inputs.wallet.getD entry.1 0
  owing : ∀ entry ∈ rest, ∀ index, inputs.assetIndex[entry.1]? = some index →
    0 < w.positions.liabilities.getD index 0
  collateral : w.positions.collateral = start.collateral

theorem repayBid_moves {inputs : FillInputs} (hwf : inputs.WellFormed) {start : Positions}
    {entry : String × Int} {rest : List (String × Int)} {w w' : Working}
    (hw : ToRepay inputs start (entry :: rest) w) (h : repayBid inputs w entry = .ok w') :
    ToRepay inputs start rest w' ∧
      (AllMove inputs.pool start (FillAction.requests w'.actions) ↔
        AllMove inputs.pool start (FillAction.requests w.actions) ∧ inputs.Repayable entry.1) := by
  have hledgered := repayBid_ledgered hw.ledgered h
  obtain ⟨hnot, hnodup⟩ := List.nodup_cons.1 (show (entry.1 :: rest.map Prod.fst).Nodup from hw.nodup)
  have hne : ∀ other ∈ rest, entry.1 ≠ other.1 := fun other ho heq => hnot (heq ▸ List.mem_map_of_mem ho)
  have hpositive := hw.positive entry (by simp)
  have hsame := hw.wallet entry (by simp)
  obtain ⟨asset, dTokens⟩ := entry
  simp only [repayBid] at h
  split at h
  · -- Nothing to repay with, and nothing is no dust.
    next hheld =>
    rw [← pure_ok_iff.1 h]
    refine ⟨⟨hw.ledgered, hnodup, fun e he => hw.positive e (by simp [he]), fun e he => hw.wallet e (by simp [he]),
      fun e he => hw.owing e (by simp [he]), hw.collateral⟩, ?_⟩
    refine (and_iff_left ?_).symm
    intro index reserve _ hdust
    have hpos := hdust.1
    dsimp only at hsame hpos
    omega
  next hheld =>
  simp only [bind_ok_iff, pure_ok_iff] at h
  obtain ⟨⟨index, reserve⟩, hr, owed, ho, wanted, hwant, tokens, ht, left, hl, rest', hrest, spend, hs, rfl⟩ := h
  obtain ⟨hindex, hreserve⟩ := reserveFor_ok hr
  obtain ⟨-, hrate⟩ := hwf.rates_pos index reserve hreserve
  have howing : 0 < w.positions.liabilities.getD index 0 := hw.owing (asset, dTokens) (by simp) index hindex
  have hl := narrow_ok hl
  have hleft : 0 ≤ left := by omega
  refine ⟨⟨hledgered, hnodup, fun e he => hw.positive e (by simp [he]), fun e he => ?_, fun e he i hi => ?_,
    hw.collateral⟩, ?_⟩
  · dsimp only
    rw [TreeMaps.getD_insert, if_neg (hne e he)]
    exact hw.wallet e (by simp [he])
  · have hother : index ≠ i := hwf.index_ne hindex hi (hne e he)
    have hget : (setBalance w.positions.liabilities index left).getD i 0 = _ := setBalance_getD hleft i
    rw [if_neg hother] at hget
    simp only [setBalance] at hget
    dsimp only
    rw [hget]
    exact hw.owing e (by simp [he]) i hi
  · have hmoves : Moves inputs.pool w.positions (.repay asset (min wanted (w.wallet.getD asset 0))) ↔
        inputs.Repayable asset := by
      have hdust := toDTokenDown_repay hrate hpositive (by omega) ho hwant ht
      rw [hsame] at hdust
      simp only [Moves, tokensMoved, reserveFor_listed hr, bind_ok_iff, pure_ok_iff, Except.ok.injEq,
        exists_eq_left']
      constructor
      · rintro ⟨_, ⟨tokens', ht', rfl⟩, hone⟩ i r hir
        obtain rfl : tokens = tokens' := Except.ok.inj (ht.symm.trans ht')
        cases hr.symm.trans hir
        exact hdust.1 (by omega)
      · intro hrepay
        have hone := hdust.2 (hrepay index reserve hr)
        exact ⟨_, ⟨tokens, ht, rfl⟩, by omega⟩
    rw [← hmoves]
    have hrun := hw.ledgered.run
    have hnext : applyRequest inputs.pool w.positions (.repay asset (min wanted (w.wallet.getD asset 0))) =
        .ok { w.positions with liabilities := setBalance w.positions.liabilities index left } := by
      simp only [applyRequest, reserveFor_listed hr, bind_ok_iff, pure_ok_iff]
      exact ⟨_, rfl, _, ht, by rw [hl]⟩
    rw [FillAction.requests_concat]
    exact allMove_concat hnext hrun

/-- The withdrawal loop's invariant: every lot asset still to come is held. -/
structure ToWithdraw (inputs : FillInputs) (start : Positions) (rest : List String) (w : Working) : Prop where
  ledgered : Ledgered inputs start w
  nodup : rest.Nodup
  held : ∀ asset ∈ rest, ∀ index, inputs.assetIndex[asset]? = some index →
    0 < w.positions.collateral.getD index 0

theorem withdrawLot_moves {inputs : FillInputs} (hwf : inputs.WellFormed) {start : Positions} {asset : String}
    {rest : List String} {w w' : Working} (hw : ToWithdraw inputs start (asset :: rest) w)
    (h : withdrawLot inputs w asset = .ok w') :
    ToWithdraw inputs start rest w' ∧
      (AllMove inputs.pool start (FillAction.requests w'.actions) ↔
        AllMove inputs.pool start (FillAction.requests w.actions) ∧ True) := by
  have hledgered := withdrawLot_ledgered hw.ledgered h
  obtain ⟨hnot, hnodup⟩ := List.nodup_cons.1 hw.nodup
  simp only [withdrawLot, bind_ok_iff] at h
  obtain ⟨⟨index, reserve⟩, hr, h⟩ := h
  obtain ⟨hindex, -⟩ := reserveFor_ok hr
  have hheld := hw.held asset (by simp) index hindex
  split at h
  · rw [pure_ok_iff] at h
    subst h
    refine ⟨⟨hledgered, hnodup, fun other ho i hi => ?_⟩, ?_⟩
    · have hother : index ≠ i := hwf.index_ne hindex hi fun heq => hnot (heq ▸ ho)
      dsimp only
      rw [TreeMaps.getD_erase, if_neg hother]
      exact hw.held other (by simp [ho]) i hi
    · have hmoves : Moves inputs.pool w.positions (.withdrawAll asset) := by
        refine ⟨w.positions.collateral.getD index 0, ?_, hheld⟩
        simp only [tokensMoved, reserveFor_listed hr, bind_ok_iff, pure_ok_iff]
        exact ⟨_, rfl, rfl⟩
      have hnext : applyRequest inputs.pool w.positions (.withdrawAll asset) =
          .ok { w.positions with collateral := w.positions.collateral.erase index } := by
        simp only [applyRequest, reserveFor_listed hr, bind_ok_iff, pure_ok_iff]
        exact ⟨_, rfl, rfl⟩
      rw [and_true]
      rw [FillAction.requests_concat]
      exact allMove_concat_of hw.ledgered.run hnext hmoves
  · rw [pure_ok_iff] at h
    subst h
    exact ⟨⟨hledgered, hnodup, fun other ho => hw.held other (by simp [ho])⟩, (and_true _).symm ▸ Iff.rfl⟩

/-- A supply is sent when it mints. -/
theorem supplyPrimary_moves {terms : FillTerms} {inputs : FillInputs} {start : Positions} {w w' : Working}
    {supply : Int} (hw : Ledgered inputs start w) (h : supplyPrimary terms inputs w supply = .ok w') :
    AllMove inputs.pool start (FillAction.requests w'.actions) ↔
      AllMove inputs.pool start (FillAction.requests w.actions) := by
  simp only [supplyPrimary] at h
  split at h
  case isFalse => rw [← pure_ok_iff.1 h]
  simp only [bind_ok_iff] at h
  obtain ⟨⟨index, reserve⟩, hr, bTokens, hb, h⟩ := h
  split at h
  case isFalse => rw [← pure_ok_iff.1 h]
  next hmint =>
  simp only [bind_ok_iff, pure_ok_iff] at h
  obtain ⟨collateral, hc, spend, hs, rfl⟩ := h
  have hmoves : Moves inputs.pool w.positions
      (.supplyCollateral terms.primaryAsset (min supply (primaryLeft terms w))) := by
    refine ⟨bTokens, ?_, hmint⟩
    simp only [tokensMoved, reserveFor_listed hr, bind_ok_iff]
    exact ⟨_, rfl, hb⟩
  have hnext : applyRequest inputs.pool w.positions
      (.supplyCollateral terms.primaryAsset (min supply (primaryLeft terms w))) =
      .ok { w.positions with collateral := raise w.positions.collateral index bTokens } := by
    simp only [applyRequest, reserveFor_listed hr, bind_ok_iff, pure_ok_iff]
    exact ⟨_, rfl, _, hb, rfl⟩
  rw [FillAction.requests_concat]
  exact allMove_concat_of hw.run hnext hmoves

/-! ## The bid a fill takes over -/

/-- The bid ramp is over `RAMP_END_BLOCKS` after the start. -/
theorem bidModifier_pos_iff {delay : Nat} : 0 < bidModifier delay ↔ delay < RAMP_END_BLOCKS := by
  rw [bidModifier_eq]
  simp only [PER_BLOCK_SCALAR, RAMP_END_BLOCKS]
  omega

/-- A share rounded up is positive where both of its factors are. -/
theorem share_ceil_pos_iff {amount factor : Int} (hfactor : 0 ≤ factor) :
    0 < share .ceil amount factor ↔ 0 < amount ∧ 0 < factor := by
  have hle : share .ceil amount factor ≤ 0 ↔ amount * factor ≤ 0 * SCALAR_7 := ceilDiv_le_iff SCALAR_7_pos
  rw [Int.zero_mul] at hle
  constructor
  · intro hpos
    have hprod : 0 < amount * factor := by omega
    have hfactor : 0 < factor := by
      by_contra hzero
      have hzero : factor = 0 := by omega
      rw [hzero, Int.mul_zero] at hprod
      omega
    exact ⟨pos_of_mul_pos_left hprod hfactor.le, hfactor⟩
  · rintro ⟨hamount, hfactor⟩
    have hprod : 0 < amount * factor := Int.mul_pos hamount hfactor
    omega

/-- A fill takes over a bid of exactly the assets bid for, until the ramp is
over and of none then. -/
theorem scaleAuction_bid_iff {auction : AuctionData} {block percent : Nat} {scaled : ScaledAuction}
    (h : scaleAuction auction block percent = .ok scaled) (asset : String) :
    0 < scaled.toFill.bid.getD asset 0 ↔
      0 < auction.bid.getD asset 0 ∧ block < auction.block + RAMP_END_BLOCKS := by
  simp only [scaleAuction] at h
  split at h
  · cases h
  next hpercent =>
  split at h
  · cases h
  next hblock =>
  simp only [bind_ok_iff, pure_ok_iff] at h
  obtain ⟨_, hp, bid, hb, lot, -, rfl⟩ := h
  obtain rfl : _ = percentScaled percent := narrow_ok hp
  have hpos : 0 < percentScaled percent := by
    simp only [percentScaled]
    omega
  have hlook := TreeMaps.foldlM_toList_at
    (fun acc entry acc' (hstep : splitAsset (fun x y z => mulDiv x y z .ceil) _ _ acc entry = .ok acc') =>
      splitAsset_shared hstep) hb asset
  have hempty : (({} : Split).amounts asset) = (0, 0) := by simp [Split.amounts]
  rw [hempty] at hlook
  have hramp : block < auction.block + RAMP_END_BLOCKS ↔ 0 < bidModifier (block - auction.block) := by
    rw [bidModifier_pos_iff]
    omega
  rw [hramp]
  cases hasset : auction.bid[asset]? with
  | none =>
    rw [hasset] at hlook
    have hnone : bid.amounts asset = (0, 0) := hlook
    have hzero : auction.bid.getD asset 0 = 0 := by rw [Std.ExtTreeMap.getD_eq_getD_getElem?, hasset]; rfl
    have htaken : bid.toFill.getD asset 0 = 0 := (Prod.mk.inj hnone).1
    dsimp only
    omega
  | some amount =>
    rw [hasset] at hlook
    have hboth : bid.amounts asset = (_, _) := hlook
    have htaken : bid.toFill.getD asset 0 = _ := (Prod.mk.inj hboth).1
    have hshares : 0 < share .ceil (share .ceil amount (percentScaled percent)) (bidModifier (block - auction.block)) ↔
        0 < amount ∧ 0 < bidModifier (block - auction.block) := by
      rw [share_ceil_pos_iff (bidModifier_range _).1, share_ceil_pos_iff hpos.le, and_iff_left hpos]
    rw [TreeMaps.getD_of_getElem? hasset, ← hshares]
    dsimp only
    rw [htaken]
    split
    · next hmore => exact iff_of_true hmore hmore
    · next hmore => exact iff_of_false (by omega) hmore

/-! ## Every draft of the fill planner -/

/-- No asset bid for is one the wallet holds dust of. -/
def FillInputs.NoDust (inputs : FillInputs) : Prop :=
  ∀ asset, 0 < inputs.auction.bid.getD asset 0 → inputs.Repayable asset

/-- The draft's requests, replayed from the fill on, each move something. -/
def FillMoves (inputs : FillInputs) (draft : FillDraft) : Prop :=
  ∃ scaled start, scaleAuction inputs.auction draft.fillLedger draft.percent.get = .ok scaled ∧
    handedOver inputs scaled.toFill = .ok start ∧
    AllMove inputs.pool start (FillAction.requests draft.actions)

theorem project_moves {terms : FillTerms} {inputs : FillInputs} {ledger : Nat} {percent : FillPercent}
    {supply : Int} {projection : Projection} (hwf : inputs.WellFormed)
    (h : project terms inputs ledger percent supply = .ok projection) :
    ∃ scaled start, scaleAuction inputs.auction ledger percent.get = .ok scaled ∧
      handedOver inputs scaled.toFill = .ok start ∧
      (AllMove inputs.pool start (FillAction.requests projection.actions) ↔
        ∀ entry ∈ scaled.toFill.bid.toList, inputs.Repayable entry.1) := by
  simp only [project, bind_ok_iff, pure_ok_iff] at h
  obtain ⟨⟨toFill, remaining⟩, hscale, collateral, hc, liabilities, hl, w₁, h₁, w₂, h₂, w₃, h₃, reserves,
    hres, data, hdata, rfl⟩ := h
  obtain ⟨hbid, hlot⟩ := scaleAuction_pos hscale
  have hstart := handedOver_of_takeOver hscale hc hl
  let start : Positions := { inputs.filler with collateral, liabilities }
  have hheld := (takeOver_held hlot.toList (getD_nonneg hwf.collateral_nonneg) hc).2
  have howing := (takeOver_held hbid.toList (getD_nonneg hwf.liabilities_nonneg) hl).2
  have hw₀ : ToRepay inputs start toFill.bid.toList ⟨start, inputs.wallet, [], ∅⟩ :=
    { ledgered := ⟨rfl, Spending.start _⟩
      nodup := by rw [Std.ExtTreeMap.map_fst_toList_eq_keys]; exact TreeMaps.nodup_keys _
      positive := hbid.toList
      wallet := fun _ _ => rfl
      owing := howing
      collateral := rfl }
  obtain ⟨hw₁, hmoves₁⟩ := foldlM_iff (ToRepay inputs start)
    (E := fun w => AllMove inputs.pool start (FillAction.requests w.actions))
    (Q := fun entry => inputs.Repayable entry.1) (fun _ _ _ _ => repayBid_moves hwf) hw₀ h₁
  have hdrain : ToWithdraw inputs start toFill.lot.keys w₁ := by
    refine ⟨hw₁.ledgered, TreeMaps.nodup_keys _, fun asset hm index hi => ?_⟩
    rw [← Std.ExtTreeMap.map_fst_toList_eq_keys] at hm
    obtain ⟨entry, he, rfl⟩ := List.mem_map.1 hm
    rw [hw₁.collateral]
    exact hheld entry he index hi
  obtain ⟨hw₂, hmoves₂⟩ := foldlM_iff (ToWithdraw inputs start)
    (E := fun w => AllMove inputs.pool start (FillAction.requests w.actions)) (Q := fun _ => True)
    (fun _ _ _ _ => withdrawLot_moves hwf) hdrain h₂
  refine ⟨_, start, hscale, hstart, ?_⟩
  dsimp only
  rw [supplyPrimary_moves hw₂.ledgered h₃, hmoves₂, hmoves₁]
  simp [FillAction.requests, AllMove]

/-- A draft's requests all move something exactly when the bid is gone or no
bid asset is dust in the wallet. -/
theorem planFill_moves_iff {terms : FillTerms} {inputs : FillInputs} {d : FillDraft} (hwf : inputs.WellFormed)
    (h : planFill terms inputs = .ok (.fill d)) :
    FillMoves inputs d ↔ inputs.auction.block + RAMP_END_BLOCKS ≤ d.fillLedger ∨ inputs.NoDust := by
  obtain ⟨ledger, percent, projection, -, -, ⟨supply, -, hp⟩, hs⟩ := planFill_candidate widens_true trivial h
  obtain ⟨-, hd, -⟩ := settle_fill hs
  obtain ⟨rfl, rfl, ha, -⟩ := draft_ok hd
  obtain ⟨scaled, start, hscale, hstart, hmoves⟩ := project_moves hwf hp
  have hbid := scaleAuction_bid_iff hscale
  have hpos := (scaleAuction_pos hscale).1
  have hfill : FillMoves inputs d ↔ ∀ entry ∈ scaled.toFill.bid.toList, inputs.Repayable entry.1 := by
    rw [← hmoves, ← ha]
    constructor
    · rintro ⟨scaled', start', hscale', hstart', hall⟩
      obtain rfl : scaled = scaled' := Except.ok.inj (hscale.symm.trans hscale')
      obtain rfl : start = start' := Except.ok.inj (hstart.symm.trans hstart')
      exact hall
    · intro hall
      exact ⟨scaled, start, hscale, hstart, hall⟩
  rw [hfill]
  constructor
  · intro hrepay
    by_cases hover : inputs.auction.block + RAMP_END_BLOCKS ≤ d.fillLedger
    · exact .inl hover
    · refine .inr fun asset hasset => ?_
      have htaken : 0 < scaled.toFill.bid.getD asset 0 := (hbid asset).2 ⟨hasset, by omega⟩
      cases hget : scaled.toFill.bid[asset]? with
      | none =>
        rw [Std.ExtTreeMap.getD_eq_getD_getElem?, hget] at htaken
        exact absurd htaken (by decide)
      | some amount => exact hrepay (asset, amount) (Std.ExtTreeMap.mem_toList_iff_getElem?_eq_some.2 hget)
  · rintro hcase ⟨asset, amount⟩ hm
    have hget := Std.ExtTreeMap.mem_toList_iff_getElem?_eq_some.1 hm
    have htaken : 0 < scaled.toFill.bid.getD asset 0 := by
      rw [TreeMaps.getD_of_getElem? hget]
      exact hpos asset amount hget
    obtain ⟨hasset, hramp⟩ := (hbid asset).1 htaken
    rcases hcase with hover | hnone
    · omega
    · exact hnone asset hasset

/-! ## Every plan of the unwind planner -/

def UnwindAction.requests (actions : List UnwindAction) : List Request := actions.map UnwindAction.request

theorem UnwindAction.requests_concat (actions : List UnwindAction) (action : UnwindAction) :
    requests (actions ++ [action]) = requests actions ++ [action.request] := List.map_append

/-- The plan's requests, replayed from the positions planned against, each
move something. -/
def UnwindMoves (inputs : UnwindInputs) (actions : List UnwindAction) : Prop :=
  AllMove inputs.pool inputs.positions (UnwindAction.requests actions)

theorem unwindMoves_concat {inputs : UnwindInputs} {actions : List UnwindAction} {action : UnwindAction}
    {real next : Positions} (hrun : replayUnwind inputs actions = .ok real)
    (hnext : applyRequest inputs.pool real action.request = .ok next) :
    UnwindMoves inputs (actions ++ [action]) ↔
      UnwindMoves inputs actions ∧ Moves inputs.pool real action.request := by
  rw [UnwindMoves, UnwindAction.requests_concat]
  exact allMove_concat hnext hrun

/-- A debt the wallet holds no dust to repay. -/
def UnwindInputs.Repayable (inputs : UnwindInputs) (index : Nat) : Prop :=
  ∀ reserve, reserveAt inputs.reserves index = .ok reserve → 0 < inputs.positions.liabilities.getD index 0 →
    ¬reserve.Dust (inputs.wallet.getD reserve.asset 0)

/-- Step 1's invariant for the indices still to visit: their debts and what
the wallet holds to repay them are as read. -/
structure ToUnwind (inputs : UnwindInputs) (rest : List Nat) (w : Repaying) : Prop where
  repaid : Repaid inputs rest w
  wallet : ∀ index ∈ rest, ∀ reserve, reserveAt inputs.reserves index = .ok reserve →
    w.wallet.getD reserve.asset 0 = inputs.wallet.getD reserve.asset 0
  owing : ∀ index ∈ rest, w.positions.liabilities.getD index 0 = inputs.positions.liabilities.getD index 0

/-- Two reserves have two assets. -/
theorem UnwindInputs.WellFormed.asset_ne {inputs : UnwindInputs} (hwf : inputs.WellFormed) {index other : Nat}
    {reserve reserve' : Reserve} (h : reserveAt inputs.reserves index = .ok reserve)
    (h' : reserveAt inputs.reserves other = .ok reserve') (hne : index ≠ other) :
    reserve.asset ≠ reserve'.asset := by
  intro hasset
  have hindex := hwf.asset_index index reserve (reserveAt_ok_iff.1 h)
  have hother := hwf.asset_index other reserve' (reserveAt_ok_iff.1 h')
  rw [← hasset, hindex] at hother
  exact hne (Option.some.inj hother)

theorem repayLiability_moves {inputs : UnwindInputs} (hwf : inputs.WellFormed) {index : Nat} {rest : List Nat}
    {w w' : Repaying} (hw : ToUnwind inputs (index :: rest) w) (h : repayLiability inputs w index = .ok w') :
    ToUnwind inputs rest w' ∧
      (UnwindMoves inputs w'.actions ↔ UnwindMoves inputs w.actions ∧ inputs.Repayable index) := by
  have hrepaid := repayLiability_repaid hwf hw.repaid h
  obtain ⟨real, hrun, -, hagree⟩ := hw.repaid.run
  obtain ⟨hnot, -⟩ := List.nodup_cons.1 hw.repaid.nodup
  have hne : ∀ i ∈ rest, index ≠ i := fun i hi heq => hnot (heq ▸ hi)
  have hsame : real.liabilities.getD index 0 = w.positions.liabilities.getD index 0 := hagree index (by simp)
  have howing := hw.owing index (by simp)
  obtain ⟨reserve, hr, hcases⟩ := repayLiability_cases h
  have hwallet := hw.wallet index (by simp) reserve hr
  obtain ⟨-, hrate⟩ := hwf.rates_pos index reserve (reserveAt_ok_iff.1 hr)
  obtain ⟨hzero, rfl⟩ | ⟨hdebt, hheld, rfl⟩ | ⟨hdebt, hheld, owed, wanted, tokens, left, rest', spend, ho, hwant, ht, hl,
    hrest, hs, rfl⟩ := hcases
  · refine ⟨⟨hrepaid, fun i hi => hw.wallet i (by simp [hi]), fun i hi => ?_⟩, (and_iff_left ?_).symm⟩
    · dsimp only
      rw [TreeMaps.getD_erase, if_neg (hne i hi)]
      exact hw.owing i (by simp [hi])
    · intro _ _ hpos
      omega
  · refine ⟨⟨hrepaid, fun i hi => hw.wallet i (by simp [hi]), fun i hi => hw.owing i (by simp [hi])⟩,
      (and_iff_left ?_).symm⟩
    intro r hr' _ hdust
    obtain rfl : reserve = r := Except.ok.inj (hr.symm.trans hr')
    have hpos := hdust.1
    omega
  refine ⟨⟨hrepaid, fun i hi r hr' => ?_, fun i hi => ?_⟩, ?_⟩
  · dsimp only
    rw [TreeMaps.getD_insert, if_neg (hwf.asset_ne hr hr' (hne i hi))]
    exact hw.wallet i (by simp [hi]) r hr'
  · have hget : ∀ amount, (setBalance w.positions.liabilities index amount)[i]? = w.positions.liabilities[i]? :=
      fun _ => setBalance_getElem?_of_ne (hne i hi)
    rw [Std.ExtTreeMap.getD_eq_getD_getElem?]
    dsimp only
    rw [hget, ← Std.ExtTreeMap.getD_eq_getD_getElem?]
    exact hw.owing i (by simp [hi])
  · have hdust := toDTokenDown_repay hrate (by omega) (by omega) ho hwant ht
    have hmoves : Moves inputs.pool real (.repay reserve.asset (min wanted (w.wallet.getD reserve.asset 0))) ↔
        inputs.Repayable index := by
      simp only [Moves, tokensMoved, hwf.listed hr, bind_ok_iff, pure_ok_iff, Except.ok.injEq, exists_eq_left']
      constructor
      · rintro ⟨_, ⟨tokens', ht', rfl⟩, hone⟩ r hr' _
        obtain rfl : tokens = tokens' := Except.ok.inj (ht.symm.trans ht')
        obtain rfl : reserve = r := Except.ok.inj (hr.symm.trans hr')
        rw [← hwallet]
        exact hdust.1 (by omega)
      · intro hrepay
        have hclean := hrepay reserve hr (by omega)
        rw [← hwallet] at hclean
        have hone := hdust.2 hclean
        exact ⟨_, ⟨tokens, ht, rfl⟩, by omega⟩
    rw [← hmoves]
    have hnext : applyRequest inputs.pool real
        (UnwindAction.repay reserve.asset (min wanted (w.wallet.getD reserve.asset 0))).request =
        .ok { real with
          liabilities := setBalance real.liabilities index
            (real.liabilities.getD index 0 - min tokens (real.liabilities.getD index 0)) } := by
      simp only [UnwindAction.request, applyRequest, hwf.listed hr, bind_ok_iff, pure_ok_iff]
      exact ⟨_, rfl, _, ht, rfl⟩
    exact unwindMoves_concat hrun hnext

/-- Where a reserve is held, both ways to withdraw it move something. -/
theorem withdraw_moves {inputs : UnwindInputs} (hwf : inputs.WellFormed) {real : Positions} {index : Nat}
    {reserve : Reserve} (hr : reserveAt inputs.reserves index = .ok reserve)
    (hheld : 0 < real.collateral.getD index 0) :
    Moves inputs.pool real (.withdrawAll reserve.asset) ∧
      ∀ amount tokens, 0 < amount → reserve.toBTokenUp amount = .ok tokens →
        Moves inputs.pool real (.withdraw reserve.asset amount) := by
  obtain ⟨hrate, -⟩ := hwf.rates_pos index reserve (reserveAt_ok_iff.1 hr)
  have hlisted := hwf.listed hr
  refine ⟨⟨_, bind_ok_iff.2 ⟨_, hlisted, rfl⟩, hheld⟩, fun amount tokens hpos ht => ?_⟩
  have htokens : 0 < tokens := by
    rw [toBTokenUp_ok hrate ht]
    exact ceilDiv_pos hrate (Int.mul_pos hpos SCALAR_12_pos)
  refine ⟨min tokens (real.collateral.getD index 0), ?_, by omega⟩
  exact bind_ok_iff.2 ⟨_, hlisted, bind_ok_iff.2 ⟨tokens, ht, rfl⟩⟩

/-- A withdrawal of step 3 from a collateral held. -/
theorem Taken.moves {terms : UnwindTerms} {bounds : Bounds} {inputs : UnwindInputs} {primary index : Nat}
    {w w' : Withdrawing} {real : Positions} (hwf : inputs.WellFormed) (hrun : replayUnwind inputs w.actions = .ok real)
    (hsame : real.collateral = w.positions.collateral) (hheld : 0 < w.positions.collateral.getD index 0)
    (h : Taken terms bounds inputs primary index w w') :
    (UnwindMoves inputs w'.actions ↔ UnwindMoves inputs w.actions) ∧
      ∀ i, index ≠ i → w'.positions.collateral.getD i 0 = w.positions.collateral.getD i 0 := by
  rw [← hsame] at hheld
  cases h with
  | whole hne hr ha =>
    refine ⟨?_, fun i hi => by dsimp only; rw [TreeMaps.getD_erase, if_neg hi]⟩
    have hmoves := (withdraw_moves hwf hr hheld).1
    rw [unwindMoves_concat hrun (applyRequest_withdrawAll hwf hr)]
    exact and_iff_left hmoves
  | part hr hpos hspare hnext ha =>
    obtain ⟨tokens, ht, rfl⟩ := afterWithdrawal_ok hr hnext
    refine ⟨?_, fun i hi => ?_⟩
    · have hmoves := (withdraw_moves hwf hr hheld).2 _ tokens hpos ht
      rw [unwindMoves_concat hrun (applyRequest_withdraw hwf hr ht)]
      exact and_iff_left hmoves
    · dsimp only
      rw [Std.ExtTreeMap.getD_eq_getD_getElem?, setBalance_getElem?_of_ne hi, ← Std.ExtTreeMap.getD_eq_getD_getElem?]

theorem walkCandidates_moves {terms : UnwindTerms} {bounds : Bounds} {inputs : UnwindInputs} {primary : Nat}
    {repaid : Repaying} (hwf : inputs.WellFormed) (hp : primaryIndex terms inputs = .ok primary)
    {order : List Nat} {w w' : Withdrawing} (hw : Withdrawn terms bounds inputs primary repaid w)
    (hnodup : order.Nodup) (hheld : ∀ index ∈ order, 0 < w.positions.collateral.getD index 0)
    (h : walkCandidates terms bounds inputs order w = .ok w') :
    UnwindMoves inputs w'.actions ↔ UnwindMoves inputs w.actions := by
  induction order generalizing w with
  | nil => simp only [walkCandidates, Except.ok.injEq] at h; rw [h]
  | cons index rest ih =>
    obtain ⟨hnot, hnodup⟩ := List.nodup_cons.1 hnodup
    obtain ⟨data, -, ⟨-, rfl⟩ | ⟨-, mid, hmid, hrest⟩⟩ := walkCandidates_cons h
    · exact Iff.rfl
    · rcases withdrawCandidate_cases hwf.rates_pos hp hmid with rfl | htaken
      · exact ih hw hnodup (fun i hi => hheld i (by simp [hi])) hrest
      · obtain ⟨real, hrun, hcov⟩ := hw.run
        obtain ⟨hmoves, hstays⟩ := htaken.moves hwf hrun hcov.collateral (hheld index (by simp))
        rw [← hmoves]
        refine ih (htaken.withdrawn hwf hw) hnodup (fun i hi => ?_) hrest
        rw [hstays i fun heq => hnot (heq ▸ hi)]
        exact hheld i (by simp [hi])

/-- Step 2's invariant: both sides hold the same, an entry of zero being
none. -/
def Level (inputs : UnwindInputs) (w : Withdrawing) : Prop :=
  ∃ real, replayUnwind inputs w.actions = .ok real ∧
    ∀ index, real.collateral.getD index 0 = w.positions.collateral.getD index 0 ∧
      0 ≤ w.positions.collateral.getD index 0

theorem withdrawFreely_moves {inputs : UnwindInputs} {primary index : Nat} {w w' : Withdrawing}
    (hwf : inputs.WellFormed) (hw : Level inputs w) (h : withdrawFreely inputs primary w index = .ok w') :
    Level inputs w' ∧ (UnwindMoves inputs w'.actions ↔ UnwindMoves inputs w.actions ∧ True) := by
  obtain ⟨real, hrun, hlevel⟩ := hw
  rw [and_true]
  obtain ⟨-, rfl⟩ | ⟨-, reserve, hr, rfl⟩ := withdrawFreely_cases h
  · exact ⟨⟨real, hrun, hlevel⟩, Iff.rfl⟩
  have hheld := hlevel index
  by_cases hempty : w.positions.collateral.getD index 0 ≤ 0
  · rw [if_pos hempty]
    refine ⟨⟨real, hrun, fun i => ?_⟩, Iff.rfl⟩
    rw [TreeMaps.getD_erase]
    split
    · next heq => subst heq; omega
    · exact hlevel i
  · rw [if_neg hempty]
    have hmoves := (withdraw_moves hwf hr (show 0 < real.collateral.getD index 0 by omega)).1
    refine ⟨⟨_, replayUnwind_concat hrun (applyRequest_withdrawAll hwf hr), fun i => ?_⟩, ?_⟩
    · rw [TreeMaps.getD_erase, TreeMaps.getD_erase]
      split
      · exact ⟨rfl, le_rfl⟩
      · exact hlevel i
    · rw [unwindMoves_concat hrun (applyRequest_withdrawAll hwf hr)]
      exact and_iff_left hmoves

theorem withdrawPrimary_moves {terms : UnwindTerms} {inputs : UnwindInputs} {primary : Nat} {w w' : Withdrawing}
    (hwf : inputs.WellFormed) (hw : Level inputs w) (h : withdrawPrimary terms inputs primary w = .ok w') :
    UnwindMoves inputs w'.actions ↔ UnwindMoves inputs w.actions := by
  obtain ⟨real, hrun, hlevel⟩ := hw
  cases withdrawPrimary_ends h with
  | empty => exact Iff.rfl
  | stays => exact Iff.rfl
  | whole hheld hr hmin =>
    have hlevel := hlevel primary
    obtain ⟨hwhole, -⟩ := withdraw_moves hwf hr (show 0 < real.collateral.getD primary 0 by omega)
    rw [unwindMoves_concat hrun (applyRequest_withdrawAll hwf hr)]
    exact and_iff_left hwhole
  | part hheld hr hexcess hpos hnext =>
    have hlevel := hlevel primary
    obtain ⟨-, hpart⟩ := withdraw_moves hwf hr (show 0 < real.collateral.getD primary 0 by omega)
    obtain ⟨tokens, ht, -⟩ := afterWithdrawal_ok hr hnext
    rw [unwindMoves_concat hrun (applyRequest_withdraw hwf hr ht)]
    exact and_iff_left (hpart _ tokens hpos ht)

/-- No debt is one the wallet holds dust to repay. -/
def UnwindInputs.NoDust (inputs : UnwindInputs) : Prop :=
  ∀ index ∈ inputs.positions.liabilities.keys, inputs.Repayable index

/-- A plan's requests all move something exactly when no debt is dust in the
wallet. -/
theorem planUnwind_moves_iff {terms : UnwindTerms} {inputs : UnwindInputs} {plan : UnwindPlan}
    (hwf : inputs.WellFormed) (h : planUnwind terms inputs = .ok plan) :
    UnwindMoves inputs plan.actions ↔ inputs.NoDust := by
  simp only [planUnwind, bind_ok_iff, pure_ok_iff] at h
  obtain ⟨repaid, hrepay, remaining, -, ⟨w, health⟩, hw, rfl⟩ := h
  have hrepaid := repay_repaid hwf hrepay
  have hstart : ToUnwind inputs inputs.positions.liabilities.keys
      { positions := inputs.positions, wallet := inputs.wallet, actions := [], spend := ∅ } := by
    refine ⟨⟨TreeMaps.nodup_keys _, ⟨inputs.positions, rfl, ⟨rfl, fun i => ⟨?_, le_rfl⟩⟩, fun _ _ => rfl⟩, rfl,
      Spending.start _, by simp⟩, fun _ _ _ _ => rfl, fun _ _ => rfl⟩
    exact getD_nonneg hwf.liabilities_nonneg i
  obtain ⟨-, hrepays⟩ := foldlM_iff (ToUnwind inputs) (E := fun w => UnwindMoves inputs w.actions)
    (Q := inputs.Repayable) (fun _ _ _ _ => repayLiability_moves hwf) hstart hrepay
  have hmoves : UnwindMoves inputs repaid.actions ↔ inputs.NoDust := by
    rw [hrepays]
    exact and_iff_right trivial
  rw [← hmoves]
  obtain ⟨real, hrun, hcov, -⟩ := hrepaid.run
  dsimp only
  simp only [withdrawCollateral] at hw
  split at hw
  · simp only [map_ok_iff, Prod.mk.injEq] at hw
    obtain ⟨freed, hfree, rfl, -⟩ := hw
    simp only [withdrawFree, bind_ok_iff] at hfree
    obtain ⟨primary, -, mid, hmid, hfree⟩ := hfree
    have hlevel : Level inputs { positions := repaid.positions, actions := repaid.actions } := by
      refine ⟨real, hrun, fun i => ?_⟩
      dsimp only
      rw [hcov.collateral, hrepaid.collateral]
      exact ⟨rfl, getD_nonneg hwf.collateral_nonneg i⟩
    obtain ⟨hlevel', hfreed⟩ := foldlM_iff (fun _ => Level inputs) (E := fun w => UnwindMoves inputs w.actions)
      (Q := fun _ => True) (fun _ _ _ _ => withdrawFreely_moves hwf) hlevel hmid
    rw [withdrawPrimary_moves hwf hlevel' hfree, hfreed]
    simp
  · simp only [withdrawWithinFloor, bind_ok_iff, pure_ok_iff, Prod.mk.injEq] at hw
    obtain ⟨bounds, hbounds, order, horder, walked, hwalk, _, -, _, -, rfl, -⟩ := hw
    obtain ⟨primary, hp⟩ := candidates_primary horder
    obtain ⟨hnodup, hheld⟩ := candidates_ok horder
    exact walkCandidates_moves hwf hp (hrepaid.withdrawn hwf) hnodup (fun i hi => (hheld i).1 hi) hwalk

/-! ## Both planners -/

/-- **Only a repay of dust does nothing.** Every request of a fill's draft,
replayed from the fill on, mints or burns at least one token exactly when the
draft lands with the bid gone, and repays nothing, or no bid asset is one the
wallet holds less than a d-token's worth of. Every request of an unwind's
plan does exactly when the wallet holds no such balance of a reserve owed. -/
theorem requests_move_iff (terms : FillTerms) (inputs : FillInputs) (unwindTerms : UnwindTerms)
    (unwindInputs : UnwindInputs) :
    (∀ d : FillDraft, inputs.WellFormed → planFill terms inputs = .ok (.fill d) →
      (FillMoves inputs d ↔ inputs.auction.block + RAMP_END_BLOCKS ≤ d.fillLedger ∨ inputs.NoDust)) ∧
    (∀ plan : UnwindPlan, unwindInputs.WellFormed → planUnwind unwindTerms unwindInputs = .ok plan →
      (UnwindMoves unwindInputs plan.actions ↔ unwindInputs.NoDust)) :=
  ⟨fun _ hwf h => planFill_moves_iff hwf h, fun _ hwf h => planUnwind_moves_iff hwf h⟩

theorem sampleAssetIndex_cases {asset : String} {index : Nat} (h : sampleAssetIndex[asset]? = some index) :
    asset = "XLM" ∧ index = 1 ∨ asset = "USDC" ∧ index = 0 := by
  simp only [sampleAssetIndex, TreeMaps.getElem?_insert] at h
  split at h
  · next heq => cases h; exact .inl ⟨heq.symm, rfl⟩
  · split at h
    · next heq => cases h; exact .inr ⟨heq.symm, rfl⟩
    · simp at h

theorem sampleInputs_wellFormed : sampleInputs.WellFormed where
  collateral_nonneg := fun index held h => by
    simp only [sampleInputs, TreeMaps.getElem?_insert] at h
    split at h
    · cases h; decide
    · simp at h
  liabilities_nonneg := fun index owed h => by simp [sampleInputs] at h
  rates_pos := fun index reserve h => by
    rcases sampleReserves_cases h with ⟨-, rfl⟩ | ⟨-, rfl⟩ <;> exact ⟨by decide, by decide⟩
  asset_index := fun asset index h => by
    rcases sampleAssetIndex_cases h with ⟨rfl, rfl⟩ | ⟨rfl, rfl⟩
    · exact ⟨sampleReserve "XLM" 1 7500000 7500000, by decide, rfl⟩
    · exact ⟨sampleReserve "USDC" 0 9500000 9500000, by decide, rfl⟩

/-- The sample auction bids for USDC alone, at index 0. -/
theorem sampleInputs_bid {asset : String} (h : 0 < sampleInputs.auction.bid.getD asset 0) : asset = "USDC" := by
  simp only [sampleInputs, TreeMaps.getD_insert] at h
  by_contra hne
  rw [if_neg (fun heq => hne heq.symm)] at h
  simp at h

theorem sampleInputs_usdc {index : Nat} {reserve : Reserve}
    (h : reserveFor sampleInputs "USDC" = .ok (index, reserve)) :
    reserve = sampleReserve "USDC" 0 9500000 9500000 := by
  obtain ⟨hindex, hreserve⟩ := reserveFor_ok h
  obtain ⟨hasset, -⟩ | ⟨-, rfl⟩ := sampleAssetIndex_cases hindex
  · exact absurd hasset (by decide)
  · rcases sampleReserves_cases hreserve with ⟨hi, -⟩ | ⟨-, hr⟩
    · cases hi
    · exact hr

/-- The sample fill and the sample unwind hold no dust, and every request of
both moves something. -/
theorem requests_move_iff_sample :
    (∃ d, planFill sampleTerms sampleInputs = .ok (.fill d) ∧ FillMoves sampleInputs d) ∧
      ∃ plan, planUnwind sampleUnwindTerms sampleUnwindInputs = .ok plan ∧
        UnwindMoves sampleUnwindInputs plan.actions := by
  constructor
  · have hsome : (plannedDraft (planFill sampleTerms sampleInputs)).isSome = true := by decide +kernel
    obtain ⟨d, hd⟩ := Option.isSome_iff_exists.1 hsome
    have h := plannedDraft_some hd
    refine ⟨d, h, ((requests_move_iff sampleTerms sampleInputs sampleUnwindTerms sampleUnwindInputs).1 d
      sampleInputs_wellFormed h).2 (.inr ?_)⟩
    intro asset hbid index reserve hr
    obtain rfl := sampleInputs_bid hbid
    rw [sampleInputs_usdc hr]
    decide
  · have hok : (planUnwind sampleUnwindTerms sampleUnwindInputs).isOk = true := by decide +kernel
    cases hplan : planUnwind sampleUnwindTerms sampleUnwindInputs with
    | error e => rw [hplan] at hok; cases hok
    | ok plan =>
      refine ⟨plan, rfl, ((requests_move_iff sampleTerms sampleInputs sampleUnwindTerms sampleUnwindInputs).2 plan
        sampleUnwindInputs_wellFormed hplan).2 ?_⟩
      intro index hm reserve hr howed
      rcases sampleReserves_cases (reserveAt_ok_iff.1 hr) with ⟨rfl, rfl⟩ | ⟨rfl, rfl⟩
      · exact absurd howed (by decide)
      · decide

/-- One unit of USDC, at a d-rate of 1.1 less than a d-token. -/
def dustWallet : BTreeMap String Int := (∅ : BTreeMap String Int).insert "USDC" 1

/-- Both planners repay with the one unit there is, and the repay burns
nothing: the pool refuses the fill, and the unwind, for as long as the unit
stays where it is. -/
theorem repay_of_dust :
    (∃ d, planFill sampleTerms { sampleInputs with wallet := dustWallet } = .ok (.fill d) ∧
      d.actions = [.repay "USDC" 1] ∧ ¬FillMoves { sampleInputs with wallet := dustWallet } d) ∧
    (∃ plan, planUnwind sampleUnwindTerms { sampleUnwindInputs with wallet := dustWallet } = .ok plan ∧
      plan.actions = [.repay "USDC" 1, .withdrawAll "XLM", .withdraw "USDC" 511030469] ∧
      ¬UnwindMoves { sampleUnwindInputs with wallet := dustWallet } plan.actions) ∧
    (sampleReserve "USDC" 0 9500000 9500000).toDTokenDown 1 = .ok 0 := by
  refine ⟨?_, ?_, by decide⟩
  · have hdraft : (plannedDraft (planFill sampleTerms { sampleInputs with wallet := dustWallet })).map
        (fun d => (d.actions, d.fillLedger)) = some ([.repay "USDC" 1], 1165) := by decide +kernel
    obtain ⟨d, hd, hboth⟩ := Option.map_eq_some_iff.1 hdraft
    obtain ⟨hactions, hledger⟩ := Prod.mk.inj hboth
    have h := plannedDraft_some hd
    have hwf : FillInputs.WellFormed { sampleInputs with wallet := dustWallet } :=
      { sampleInputs_wellFormed with }
    refine ⟨d, h, hactions, fun hmoves => ?_⟩
    rcases (planFill_moves_iff hwf h).1 hmoves with hover | hnone
    · rw [hledger] at hover
      exact absurd hover (by decide)
    · exact hnone "USDC" (by decide) 0 _ rfl (by decide)
  · have hplan : (planUnwind sampleUnwindTerms { sampleUnwindInputs with wallet := dustWallet }).toOption.map
        (fun plan => plan.actions) =
        some [.repay "USDC" 1, .withdrawAll "XLM", .withdraw "USDC" 511030469] := by decide +kernel
    obtain ⟨plan, hp, hactions⟩ := Option.map_eq_some_iff.1 hplan
    have h : planUnwind sampleUnwindTerms { sampleUnwindInputs with wallet := dustWallet } = .ok plan := by
      cases hr : planUnwind sampleUnwindTerms { sampleUnwindInputs with wallet := dustWallet } with
      | error e => rw [hr] at hp; cases hp
      | ok plan' => rw [hr] at hp; cases hp; rfl
    have hwf : UnwindInputs.WellFormed { sampleUnwindInputs with wallet := dustWallet } :=
      { sampleUnwindInputs_wellFormed with }
    refine ⟨plan, h, hactions, fun hmoves => ?_⟩
    exact (planUnwind_moves_iff hwf h).1 hmoves 0 (by decide) _ rfl (by decide) (by decide)

end BlendLiquidator
