/-
A signed fill may land later than it was planned for. The lot has grown by
then and the bid shrunk, the requests are the same, and what they leave is
better entry by entry (`Better`): more collateral and less owed.

What the later ledger can take away is the value of that collateral. A fill
that leaves nothing of the auction runs the borrower's default path, and the
default path of a later ledger finds a borrower with less collateral and more
debt: it may open where the planned one did not, and cut a b-rate the plan
counted on. With the b-rates of what the filler holds no lower than planned,
the promise stands.
-/
import BlendLiquidator.AuctionFills
import BlendLiquidator.SupplyRound

namespace BlendLiquidator

open Results IntDiv

/-! ## Landing at another ledger -/

/-- The filler's positions once the draft's requests have landed at `ledger`. -/
def replayAt (inputs : FillInputs) (draft : FillDraft) (ledger : Nat) : Except MathError Positions := do
  let scaled ← scaleAuction inputs.auction ledger draft.percent.get
  let start ← handedOver inputs scaled.toFill
  draft.actions.foldlM (applyAction inputs) start

/-- The reserves the contract values the filler against there. -/
def valuedAt (inputs : FillInputs) (draft : FillDraft) (ledger : Nat) : Except MathError (BTreeMap Nat Reserve) := do
  let scaled ← scaleAuction inputs.auction ledger draft.percent.get
  valuationReserves inputs scaled

/-! ## Better positions -/

/-- At least as much collateral, and no more owed, entry by entry; more
collateral only where `G` admits it. -/
structure Better (G : Nat → Prop) (p p' : Positions) : Prop where
  held : ∀ index, 0 ≤ p.collateral.getD index 0 ∧ p.collateral.getD index 0 ≤ p'.collateral.getD index 0
  grown : ∀ index, p.collateral.getD index 0 = p'.collateral.getD index 0 ∨ G index
  owed : ∀ index, 0 ≤ p'.liabilities.getD index 0 ∧ p'.liabilities.getD index 0 ≤ p.liabilities.getD index 0

/-- What is left of more is more. -/
theorem setBalance_mono {map map' : BTreeMap Nat Int} {index : Nat} {taken : Int}
    (h : ∀ i, 0 ≤ map.getD i 0 ∧ map.getD i 0 ≤ map'.getD i 0) (i : Nat) :
    0 ≤ (setBalance map index (map.getD index 0 - min taken (map.getD index 0))).getD i 0 ∧
      (setBalance map index (map.getD index 0 - min taken (map.getD index 0))).getD i 0 ≤
        (setBalance map' index (map'.getD index 0 - min taken (map'.getD index 0))).getD i 0 := by
  have hindex := h index
  have hi := h i
  rw [setBalance_getD (by omega), setBalance_getD (by omega)]
  split
  · omega
  · exact hi

theorem applyRequest_better {G : Nat → Prop} {pool : PoolReserves} {p p' q : Positions} {request : Request}
    (hrates : ∀ (index : Nat) (reserve : Reserve), pool.reserves[index]? = some reserve → 0 < reserve.data.bRate)
    (hpos : ∀ asset amount, request = .supplyCollateral asset amount → 0 ≤ amount)
    (h : Better G p p') (hq : applyRequest pool p request = .ok q) :
    ∃ q', applyRequest pool p' request = .ok q' ∧ Better G q q' := by
  cases request with
  | repay asset amount =>
    simp only [applyRequest, bind_ok_iff, pure_ok_iff] at hq ⊢
    obtain ⟨⟨index, reserve⟩, hlisted, tokens, ht, rfl⟩ := hq
    exact ⟨_, ⟨_, hlisted, tokens, ht, rfl⟩, h.held, h.grown, setBalance_mono h.owed⟩
  | withdraw asset amount =>
    simp only [applyRequest, bind_ok_iff, pure_ok_iff] at hq ⊢
    obtain ⟨⟨index, reserve⟩, hlisted, tokens, ht, rfl⟩ := hq
    refine ⟨_, ⟨_, hlisted, tokens, ht, rfl⟩, setBalance_mono h.held, fun i => ?_, h.owed⟩
    have hindex := h.held index
    dsimp only
    rw [setBalance_getD (by omega), setBalance_getD (by omega)]
    split
    · next heq =>
      subst heq
      rcases h.grown index with hsame | hgrown
      · exact .inl (by rw [hsame])
      · exact .inr hgrown
    · exact h.grown i
  | withdrawAll asset =>
    simp only [applyRequest, bind_ok_iff, pure_ok_iff] at hq ⊢
    obtain ⟨⟨index, reserve⟩, hlisted, rfl⟩ := hq
    refine ⟨_, ⟨_, hlisted, rfl⟩, fun i => ?_, fun i => ?_, h.owed⟩
    · dsimp only
      rw [TreeMaps.getD_erase, TreeMaps.getD_erase]
      split
      · exact ⟨le_rfl, le_rfl⟩
      · exact h.held i
    · dsimp only
      rw [TreeMaps.getD_erase, TreeMaps.getD_erase]
      split
      · exact .inl rfl
      · exact h.grown i
  | supplyCollateral asset amount =>
    simp only [applyRequest, bind_ok_iff, pure_ok_iff] at hq ⊢
    obtain ⟨⟨index, reserve⟩, hlisted, minted, hm, rfl⟩ := hq
    have hminted : 0 ≤ minted := by
      have hreserve : pool.reserves[index]? = some reserve := by
        simp only [PoolReserves.listed] at hlisted
        split at hlisted
        · cases hlisted
        · simp only [bind_ok_iff, pure_ok_iff, Prod.mk.injEq] at hlisted
          obtain ⟨reserve', hr, rfl, rfl⟩ := hlisted
          exact reserveAt_ok_iff.1 hr
      have hrate := hrates index reserve hreserve
      rw [Reserve.toBTokenDown, divFloor_eq hrate] at hm
      rw [narrow_ok hm]
      exact Int.ediv_nonneg (Int.mul_nonneg (hpos asset amount rfl) SCALAR_12_pos.le) hrate.le
    have hindex := h.held index
    refine ⟨_, ⟨_, hlisted, minted, hm, rfl⟩, fun i => ?_, fun i => ?_, h.owed⟩
    · simp only [raise, TreeMaps.getD_insert]
      split
      · omega
      · exact h.held i
    · simp only [raise, TreeMaps.getD_insert]
      split
      · next heq =>
        subst heq
        rcases h.grown index with hsame | hgrown
        · exact .inl (by rw [hsame])
        · exact .inr hgrown
      · exact h.grown i

/-! ## Better positions are worth more -/

section Worth

variable {before after : BTreeMap Nat Reserve} {prices : OraclePrices}

theorem Priced.of_sameDebts (hdebts : SameDebts before after) {index : Nat} (h : Priced before prices index) :
    Priced after prices index := by
  obtain ⟨reserve, price, hr, hprice⟩ := h
  rcases hdebts.cases index with ⟨hb, -⟩ | ⟨reserve₀, reserve', hb, ha, hasset, -⟩
  · rw [hr] at hb
    cases hb
  · rw [hr] at hb
    cases hb
    exact ⟨reserve', price, ha, by rw [hasset]; exact hprice⟩

/-- The valuation of better positions, at rates no lower: more collateral and
fewer liabilities, unless it overflows. -/
theorem Better.valued {G : Nat → Prop} {p p' : Positions} {data : PositionData} (hbetter : Better G p p')
    (hdebts : SameDebts before after)
    (hdRates : ∀ (index : Nat) (reserve : Reserve), before[index]? = some reserve → 0 ≤ reserve.data.dRate)
    (hnonneg : ∀ (index : Nat) (reserve : Reserve), after[index]? = some reserve → 0 ≤ reserve.data.bRate)
    (hrates : ∀ (index : Nat) (reserve reserve' : Reserve), before[index]? = some reserve →
      after[index]? = some reserve' → 0 < p'.collateral.getD index 0 → reserve.data.bRate ≤ reserve'.data.bRate)
    (hgrown : ∀ index, G index → Priced after prices index)
    (h : calculatePositionData before prices p = .ok data) :
    OkOr .overflow (calculatePositionData after prices p') ∧
      ∀ data', calculatePositionData after prices p' = .ok data' →
        data.collateralBase ≤ data'.collateralBase ∧ 0 ≤ data'.liabilityBase ∧
        data'.liabilityBase ≤ data.liabilityBase ∧ data'.scalar = data.scalar := by
  obtain ⟨hbase, hdebt, hscalar, hpriced, hvalued⟩ := calculatePositionData_sums h
  constructor
  · refine calculatePositionData_okOr (fun index hne => ?_) fun index hne => ?_
    · rcases hbetter.grown index with hsame | hg
      · rw [← hsame] at hne
        exact (hpriced index hne).of_sameDebts hdebts
      · exact hgrown index hg
    · have howed := hbetter.owed index
      obtain ⟨worth, hworth⟩ := hvalued index (by omega)
      obtain ⟨worth', hworth', -, -⟩ := liabilityWorth_mono hdRates howed.1 howed.2 hworth
      exact ⟨worth', by rw [hdebts.liabilityWorth_eq]; exact hworth'⟩
  · intro data' h'
    obtain ⟨hbase', hdebt', hscalar', -, -⟩ := calculatePositionData_sums h'
    have hzero : ∀ k, heldBaseAt before prices k 0 = 0 := heldBaseAt_zero
    have hzero' : ∀ k, heldBaseAt after prices k 0 = 0 := heldBaseAt_zero
    have hworth : ∀ k d, worthOf after prices Prod.fst k d = worthOf before prices Prod.fst k d := by
      intro k d
      simp only [worthOf, hdebts.liabilityWorth_eq]
    refine ⟨?_, ?_, ?_, by rw [hscalar', hscalar]⟩
    · rw [hbase, hbase']
      exact TreeMaps.sum_toList_le _ _ hzero' hzero fun k =>
        heldBaseAt_mono hdebts (hbetter.held k).1 (hbetter.held k).2 hnonneg (hrates k)
    · exact calculatePositionData_liability_nonneg (hdebts.dRate_nonneg hdRates) (fun k => (hbetter.owed k).1) h'
    · rw [hdebt, hdebt']
      refine TreeMaps.sum_toList_le _ _ (fun k => worthOf_zero) (fun k => worthOf_zero) fun k => ?_
      rw [hworth]
      exact worthOf_le hdRates (.inl rfl) (hbetter.owed k).1 (hbetter.owed k).2 (hvalued k)

end Worth

/-- More collateral against fewer liabilities is no less healthy. -/
theorem PositionData.HfAtLeast.mono {d d' : PositionData} {min : Int} (h : d.HfAtLeast min)
    (hc : d.collateralBase ≤ d'.collateralBase) (hs : d'.scalar = d.scalar) (hscalar : 0 ≤ d.scalar)
    (h0 : 0 ≤ d'.liabilityBase) (hle : d'.liabilityBase ≤ d.liabilityBase) (hvalue : 0 ≤ d.collateralBase) :
    d'.HfAtLeast min := by
  have hmore : ({ d with collateralBase := d'.collateralBase } : PositionData).HfAtLeast min := by
    rcases h with h | h
    · exact .inl h
    · by_cases hz : d.liabilityBase = 0
      · exact .inl hz
      · refine .inr (h.trans (Int.ediv_le_ediv (show 0 < d.liabilityBase by omega) ?_))
        exact Int.mul_le_mul_of_nonneg_right hc hscalar
  exact hmore.of_le rfl hs h0 hle (Int.mul_nonneg (hvalue.trans hc) hscalar)

/-! ## Handing the auction over -/

/-- What a map holds under an asset's index. -/
def heldOf (inputs : FillInputs) (map : BTreeMap Nat Int) (asset : String) : Int :=
  inputs.assetIndex[asset]?.elim 0 fun index => map.getD index 0

theorem handOver_ok {inputs : FillInputs} {map map' : BTreeMap Nat Int} {entry : String × Int}
    (h : handOver inputs map entry = .ok map') :
    ∃ index, inputs.assetIndex[entry.1]? = some index ∧ map' = raise map index entry.2 := by
  simp only [handOver, bind_ok_iff, pure_ok_iff, PoolReserves.listed, FillInputs.pool] at h
  obtain ⟨⟨index, reserve⟩, hlisted, rfl⟩ := h
  split at hlisted
  · cases hlisted
  · next found hfound =>
    simp only [bind_ok_iff, pure_ok_iff, Prod.mk.injEq] at hlisted
    obtain ⟨_, -, rfl, -⟩ := hlisted
    exact ⟨found, hfound, rfl⟩

section HandOver

variable {inputs : FillInputs} (hwf : inputs.WellFormed)

include hwf

/-- Handing a side over adds each asset's amount at its own index. -/
theorem handOver_held {side : BTreeMap String Int} {map map' : BTreeMap Nat Int} {asset : String} {index : Nat}
    (hindex : inputs.assetIndex[asset]? = some index) (h : side.toList.foldlM (handOver inputs) map = .ok map') :
    map'.getD index 0 = map.getD index 0 + side.getD asset 0 := by
  have hstep : ∀ acc entry acc', handOver inputs acc entry = .ok acc' →
      heldOf inputs acc' entry.1 = heldOf inputs acc entry.1 + entry.2 ∧
        ∀ a, entry.1 ≠ a → heldOf inputs acc' a = heldOf inputs acc a := by
    intro acc entry acc' hacc
    obtain ⟨found, hfound, rfl⟩ := handOver_ok hacc
    refine ⟨?_, fun a ha => ?_⟩
    · simp only [heldOf, hfound, Option.elim_some, raise, TreeMaps.getD_insert, if_true]
    · unfold heldOf
      cases hother : inputs.assetIndex[a]? with
      | none => rfl
      | some other =>
        simp only [Option.elim_some, raise, TreeMaps.getD_insert]
        rw [if_neg (hwf.index_ne hfound hother ha)]
  have hlook := TreeMaps.foldlM_toList_at (R := fun v before after => after = before + v) hstep h asset
  cases hside : side[asset]? with
  | none =>
    rw [hside] at hlook
    have hsame : heldOf inputs map' asset = heldOf inputs map asset := hlook
    simp only [heldOf, hindex, Option.elim_some] at hsame
    rw [hsame, Std.ExtTreeMap.getD_eq_getD_getElem? (t := side), hside, Option.getD_none, Int.add_zero]
  | some amount =>
    rw [hside] at hlook
    have hraised : heldOf inputs map' asset = heldOf inputs map asset + amount := hlook
    simp only [heldOf, hindex, Option.elim_some] at hraised
    rw [hraised, TreeMaps.getD_of_getElem? hside]

omit hwf in
/-- An index no asset has is left alone. -/
theorem handOver_other {side : BTreeMap String Int} {map map' : BTreeMap Nat Int} {index : Nat}
    (hnone : ∀ asset : String, inputs.assetIndex[asset]? ≠ some index)
    (h : side.toList.foldlM (handOver inputs) map = .ok map') : map'.getD index 0 = map.getD index 0 := by
  refine foldlM_inv (fun _ acc => acc.getD index 0 = map.getD index 0) (fun entry rest acc acc' hacc hstep => ?_) rfl h
  obtain ⟨found, hfound, rfl⟩ := handOver_ok hstep
  have hne : found ≠ index := fun heq => hnone entry.1 (heq ▸ hfound)
  simp only [raise, TreeMaps.getD_insert]
  rw [if_neg hne]
  exact hacc

/-- More of a side of the auction is more of it at every index. -/
theorem handOver_mono {side side' : BTreeMap String Int} {map less more : BTreeMap Nat Int}
    (hside : ∀ asset, side.getD asset 0 ≤ side'.getD asset 0) (h : side.toList.foldlM (handOver inputs) map = .ok less)
    (h' : side'.toList.foldlM (handOver inputs) map = .ok more) (index : Nat) :
    less.getD index 0 ≤ more.getD index 0 := by
  by_cases hasset : ∃ asset : String, inputs.assetIndex[asset]? = some index
  · obtain ⟨asset, hindex⟩ := hasset
    have hle := hside asset
    rw [handOver_held hwf hindex h, handOver_held hwf hindex h']
    omega
  · have hnone : ∀ asset : String, inputs.assetIndex[asset]? ≠ some index := fun asset heq => hasset ⟨asset, heq⟩
    rw [handOver_other hnone h, handOver_other hnone h']

/-- A side of assets that the pool lists is handed over. -/
theorem handOver_total {side : BTreeMap String Int} {map : BTreeMap Nat Int}
    (hlisted : ∀ asset, 0 < side.getD asset 0 → ∃ index : Nat, inputs.assetIndex[asset]? = some index)
    (hpos : AllPos side) : ∃ map', side.toList.foldlM (handOver inputs) map = .ok map' := by
  refine foldlM_total fun entry hentry acc => ?_
  have hget := Std.ExtTreeMap.mem_toList_iff_getElem?_eq_some.1 (show (entry.1, entry.2) ∈ side.toList from hentry)
  have hamount : 0 < side.getD entry.1 0 := by
    rw [TreeMaps.getD_of_getElem? hget]
    exact hpos entry.1 entry.2 hget
  obtain ⟨index, hindex⟩ := hlisted entry.1 hamount
  obtain ⟨reserve, hr, -⟩ := hwf.asset_index entry.1 index hindex
  refine ⟨raise acc index entry.2, ?_⟩
  simp only [handOver, PoolReserves.listed, FillInputs.pool, hindex, bind_ok_iff, pure_ok_iff]
  exact ⟨(index, reserve), ⟨reserve, reserveAt_ok_iff.2 hr, rfl⟩, rfl⟩

end HandOver

/-! ## The auction at two ledgers -/

/-- What the planner valued the whole auction as. -/
theorem planFill_whole {terms : FillTerms} {inputs : FillInputs} {answer : PlannedFill}
    (h : planFill terms inputs = .ok answer) :
    ∃ positions whole, auctionPositions inputs.auction inputs.assetIndex = .ok positions ∧
      calculatePositionData inputs.reserves inputs.prices positions = .ok whole := by
  simp only [planFill, bind_ok_iff] at h
  obtain ⟨positions, hpositions, whole, hwhole, -⟩ := h
  exact ⟨positions, whole, hpositions, hwhole⟩

section Sides

variable {inputs : FillInputs} {side : BTreeMap String Int} {positions : BTreeMap Nat Int}

theorem indexEntry_ok {assetIndex : BTreeMap String Nat} {map map' : BTreeMap Nat Int} {entry : String × Int}
    (h : indexEntry assetIndex map entry = .ok map') :
    ∃ index, assetIndex[entry.1]? = some index ∧ map' = map.insert index entry.2 := by
  unfold indexEntry at h
  split at h
  · next index hindex =>
    cases h
    exact ⟨index, hindex, rfl⟩
  · cases h

/-- An auction the planner could index names assets of the pool alone. -/
theorem indexEntry_listed (h : side.toList.foldlM (indexEntry inputs.assetIndex) ∅ = .ok positions) {asset : String}
    (hasset : 0 < side.getD asset 0) : ∃ index : Nat, inputs.assetIndex[asset]? = some index := by
  cases hget : side[asset]? with
  | none =>
    rw [Std.ExtTreeMap.getD_eq_getD_getElem?, hget] at hasset
    exact absurd hasset (by decide)
  | some amount =>
    obtain ⟨acc, acc', hstep⟩ := foldlM_ok_mem h (asset, amount) (Std.ExtTreeMap.mem_toList_iff_getElem?_eq_some.2 hget)
    obtain ⟨index, hindex, -⟩ := indexEntry_ok hstep
    exact ⟨index, hindex⟩

/-- Its positions hold each asset's amount at its own index. -/
theorem indexEntry_held (hwf : inputs.WellFormed)
    (h : side.toList.foldlM (indexEntry inputs.assetIndex) ∅ = .ok positions) {asset : String} {index : Nat}
    (hindex : inputs.assetIndex[asset]? = some index) (hasset : 0 < side.getD asset 0) :
    positions.getD index 0 = side.getD asset 0 := by
  have hstep : ∀ acc entry acc', indexEntry inputs.assetIndex acc entry = .ok acc' →
      heldOf inputs acc' entry.1 = entry.2 ∧ ∀ a, entry.1 ≠ a → heldOf inputs acc' a = heldOf inputs acc a := by
    intro acc entry acc' hacc
    obtain ⟨found, hfound, rfl⟩ := indexEntry_ok hacc
    refine ⟨?_, fun a ha => ?_⟩
    · simp only [heldOf, hfound, Option.elim_some, TreeMaps.getD_insert, if_true]
    · unfold heldOf
      cases hother : inputs.assetIndex[a]? with
      | none => rfl
      | some other =>
        simp only [Option.elim_some, TreeMaps.getD_insert]
        rw [if_neg (hwf.index_ne hfound hother ha)]
  have hlook := TreeMaps.foldlM_toList_at (R := fun v _ after => after = v) hstep h asset
  cases hget : side[asset]? with
  | none =>
    rw [Std.ExtTreeMap.getD_eq_getD_getElem?, hget] at hasset
    exact absurd hasset (by decide)
  | some amount =>
    rw [hget] at hlook
    have hheld : heldOf inputs positions asset = amount := hlook
    simp only [heldOf, hindex, Option.elim_some] at hheld
    rw [hheld, TreeMaps.getD_of_getElem? hget]

end Sides

/-- What a later ledger does to the two sides: the lot has not shrunk, the
bid has not grown, and neither holds an asset the auction does not. -/
structure Later (auction : AuctionData) (earlier later : ScaledAuction) : Prop where
  lot : ∀ asset, earlier.toFill.lot.getD asset 0 ≤ later.toFill.lot.getD asset 0
  bid : ∀ asset, later.toFill.bid.getD asset 0 ≤ earlier.toFill.bid.getD asset 0
  lotOf : ∀ asset, 0 < later.toFill.lot.getD asset 0 → 0 < auction.lot.getD asset 0
  bidOf : ∀ asset, 0 < later.toFill.bid.getD asset 0 → 0 < auction.bid.getD asset 0
  remaining : later.remaining.isNone = earlier.remaining.isNone

theorem scaleAuction_later {auction : AuctionData} {block block' percent : Nat} {scaled : ScaledAuction}
    (hrange : auction.InRange) (hle : block ≤ block') (hpercent : 1 ≤ percent) (hhundred : percent ≤ 100)
    (hblock : auction.block ≤ block) (h : scaleAuction auction block percent = .ok scaled) :
    ∃ scaled', scaleAuction auction block' percent = .ok scaled' ∧ Later auction scaled scaled' := by
  obtain ⟨scaled₀, h₀, hs⟩ := scaleAuction_scales hrange hblock hpercent hhundred
  obtain rfl : scaled = scaled₀ := Except.ok.inj (h.symm.trans h₀)
  obtain ⟨scaled', h', hs'⟩ := scaleAuction_scales hrange (hblock.trans hle) hpercent hhundred
  have hdelay : block - auction.block ≤ block' - auction.block := by omega
  have hp0 := percentScaled_nonneg percent
  have hlot0 := fun asset => (hrange.lot.getD asset).1
  have hbid0 := fun asset => (hrange.bid.getD asset).1
  refine ⟨scaled', h', fun asset => ?_, fun asset => ?_, fun asset hpos => ?_, fun asset hpos => ?_, ?_⟩
  · rw [hs.lot, hs'.lot]
    exact share_mono (share_nonneg (hlot0 asset) hp0) (lotModifier_mono hdelay)
  · rw [hs.bid, hs'.bid]
    exact share_mono (share_nonneg (hbid0 asset) hp0) (bidModifier_anti hdelay)
  · rw [hs'.lot] at hpos
    have hamount := hlot0 asset
    by_contra hzero
    have hzero : auction.lot.getD asset 0 = 0 := by omega
    rw [hzero, share_zero, share_zero] at hpos
    omega
  · rw [hs'.bid] at hpos
    have hamount := hbid0 asset
    by_contra hzero
    have hzero : auction.bid.getD asset 0 = 0 := by omega
    rw [hzero, share_zero, share_zero] at hpos
    omega
  · -- What a percent leaves does not depend on the ledger.
    have hempty : scaled'.left.isEmpty = scaled.left.isEmpty := by
      have hiff : ∀ {a b : BTreeMap String Int}, AllPos b → (∀ asset, a.getD asset 0 = b.getD asset 0) →
          a.isEmpty = true → b.isEmpty = true := by
        intro a b hb hsame ha
        exact hb.isEmpty_of_getD fun asset => (hsame asset).symm.trans (getD_eq_zero_of_isEmpty ha asset)
      have hbid : ∀ asset, scaled.left.bid.getD asset 0 = scaled'.left.bid.getD asset 0 := fun asset => by
        rw [hs.bidLeft, hs'.bidLeft]
      have hlot : ∀ asset, scaled.left.lot.getD asset 0 = scaled'.left.lot.getD asset 0 := fun asset => by
        rw [hs.lotLeft, hs'.lotLeft]
      obtain ⟨-, -, hb, hl⟩ := hs.stored
      obtain ⟨-, -, hb', hl'⟩ := hs'.stored
      rw [Bool.eq_iff_iff, AuctionData.isEmpty, AuctionData.isEmpty, Bool.and_eq_true, Bool.and_eq_true]
      exact ⟨fun he => ⟨hiff hb (fun a => (hbid a).symm) he.1, hiff hl (fun a => (hlot a).symm) he.2⟩,
        fun he => ⟨hiff hb' hbid he.1, hiff hl' hlot he.2⟩⟩
    rw [Bool.eq_iff_iff, Option.isNone_iff_eq_none, Option.isNone_iff_eq_none, hs.none_iff, hs'.none_iff, hempty]

/-- An asset of the pool whose lot the auction holds. -/
def InLot (inputs : FillInputs) (index : Nat) : Prop :=
  ∃ asset : String, inputs.assetIndex[asset]? = some index ∧ 0 < inputs.auction.lot.getD asset 0

/-- The later fill starts the filler off better. -/
theorem handedOver_better {inputs : FillInputs} (hwf : inputs.WellFormed) {positions : Positions}
    {scaled scaled' : ScaledAuction} {start : Positions}
    (hpositions : auctionPositions inputs.auction inputs.assetIndex = .ok positions)
    (hlater : Later inputs.auction scaled scaled')
    (hpos : AllPos scaled.toFill.lot) (hpos' : AllPos scaled'.toFill.bid ∧ AllPos scaled'.toFill.lot)
    (h : handedOver inputs scaled.toFill = .ok start) :
    ∃ start', handedOver inputs scaled'.toFill = .ok start' ∧ Better (InLot inputs) start start' := by
  simp only [auctionPositions, bind_ok_iff] at hpositions
  obtain ⟨_, hlots, _, hbids, -⟩ := hpositions
  simp only [handedOver, bind_ok_iff, pure_ok_iff] at h
  obtain ⟨collateral, hc, liabilities, hl, rfl⟩ := h
  obtain ⟨collateral', hc'⟩ : ∃ map', scaled'.toFill.lot.toList.foldlM (handOver inputs) inputs.filler.collateral = .ok map' :=
    handOver_total hwf (fun asset hasset => indexEntry_listed hlots (hlater.lotOf asset hasset)) hpos'.2
  obtain ⟨liabilities', hl'⟩ :
      ∃ map', scaled'.toFill.bid.toList.foldlM (handOver inputs) inputs.filler.liabilities = .ok map' :=
    handOver_total hwf (fun asset hasset => indexEntry_listed hbids (hlater.bidOf asset hasset)) hpos'.1
  have hempty : ∀ map : BTreeMap Nat Int, (∅ : BTreeMap String Int).toList.foldlM (handOver inputs) map = .ok map := by
    intro map
    rfl
  have hnone : ∀ asset : String, (∅ : BTreeMap String Int).getD asset 0 = 0 := fun asset => by simp
  refine ⟨_, bind_ok_iff.2 ⟨collateral', hc', bind_ok_iff.2 ⟨liabilities', hl', rfl⟩⟩, fun index => ⟨?_, ?_⟩,
    fun index => ?_, fun index => ⟨?_, ?_⟩⟩
  · refine (getD_nonneg hwf.collateral_nonneg index).trans (handOver_mono hwf (fun asset => ?_) (hempty _) hc index)
    rw [hnone]
    exact hpos.getD_nonneg asset
  · exact handOver_mono hwf hlater.lot hc hc' index
  · by_cases hasset : ∃ asset : String, inputs.assetIndex[asset]? = some index
    · obtain ⟨asset, hindex⟩ := hasset
      by_cases hlot : 0 < inputs.auction.lot.getD asset 0
      · exact .inr ⟨asset, hindex, hlot⟩
      · -- An amount the auction does not have is none at either ledger.
        left
        have hlate : ¬0 < scaled'.toFill.lot.getD asset 0 := fun hlate => hlot (hlater.lotOf asset hlate)
        have hmore := hlater.lot asset
        have hsome := hpos.getD_nonneg asset
        dsimp only
        rw [handOver_held hwf hindex hc, handOver_held hwf hindex hc']
        omega
    · have hother : ∀ asset : String, inputs.assetIndex[asset]? ≠ some index := fun asset heq => hasset ⟨asset, heq⟩
      left
      dsimp only
      rw [handOver_other hother hc, handOver_other hother hc']
  · refine (getD_nonneg hwf.liabilities_nonneg index).trans (handOver_mono hwf (fun asset => ?_) (hempty _) hl' index)
    rw [hnone]
    exact hpos'.1.getD_nonneg asset
  · exact handOver_mono hwf hlater.bid hl' hl index

/-- What the filler holds is worth no less per b-token than it was planned to
be. -/
def RatesKept (before after : BTreeMap Nat Reserve) (p : Positions) : Prop :=
  ∀ (index : Nat) (reserve reserve' : Reserve), before[index]? = some reserve → after[index]? = some reserve' →
    0 < p.collateral.getD index 0 → reserve.data.bRate ≤ reserve'.data.bRate

/-- Past the ramps the auction stands still. -/
theorem scaleAuction_past_ramps {auction : AuctionData} {block block' percent : Nat}
    (h : auction.block + RAMP_END_BLOCKS ≤ block) (hle : block ≤ block') :
    scaleAuction auction block' percent = scaleAuction auction block percent := by
  have hdelay : 400 ≤ block - auction.block ∧ 400 ≤ block' - auction.block := by
    simp only [RAMP_END_BLOCKS] at h
    omega
  have hbid : bidModifier (block' - auction.block) = bidModifier (block - auction.block) := by
    rw [bidModifier_eq, bidModifier_eq, Nat.sub_eq_zero_of_le hdelay.1, Nat.sub_eq_zero_of_le hdelay.2]
  have hlot : lotModifier (block' - auction.block) = lotModifier (block - auction.block) := by
    rw [lotModifier_eq, lotModifier_eq, Nat.min_eq_right (by omega), Nat.min_eq_right (by omega)]
  have hblock : block' < auction.block ↔ block < auction.block := by omega
  simp only [scaleAuction, hbid, hlot, hblock]

/-- A planned projection, and where the draft's requests leave the filler at
`ledger`. -/
structure LandedLate (terms : FillTerms) (inputs : FillInputs) (d : FillDraft) (ledger : Nat) (projection : Projection)
    (after : Positions) : Prop where
  planned : ∃ before, valuedAt inputs d d.fillLedger = .ok before ∧
    calculatePositionData before inputs.prices projection.positions = .ok projection.data
  healthy : healthy terms projection = .ok true
  replayed : replayAt inputs d ledger = .ok after
  better : Better (InLot inputs) projection.positions after
  later : ∃ scaled scaled', scaleAuction inputs.auction d.fillLedger d.percent.get = .ok scaled ∧
    scaleAuction inputs.auction ledger d.percent.get = .ok scaled' ∧ Later inputs.auction scaled scaled'

theorem planFill_landedLate {terms : FillTerms} {inputs : FillInputs} {d : FillDraft} {ledger : Nat}
    (hwf : inputs.WellFormed) (hrange : inputs.auction.InRange) (h : planFill terms inputs = .ok (.fill d))
    (hle : d.fillLedger ≤ ledger) : ∃ projection after, LandedLate terms inputs d ledger projection after := by
  obtain ⟨positions, whole, hpositions, -⟩ := planFill_whole h
  obtain ⟨ledger₀, percent, projection, hearliest, hcandidate, ⟨supply, -, hp⟩, hs⟩ :=
    planFill_candidate widens_true trivial h
  obtain ⟨-, hd, -⟩ := settle_fill hs
  obtain ⟨rfl, rfl, ha, -⟩ := draft_ok hd
  obtain ⟨scaled, start, before, hscale, hstart, hrun, hres, hdata⟩ := (project_exact hp).scaled
  have hblock : inputs.auction.block ≤ d.fillLedger := (le_max_right _ _).trans hearliest
  obtain ⟨scaled', hscale', hlater⟩ :=
    scaleAuction_later hrange hle d.percent.one_le d.percent.le_hundred hblock hscale
  obtain ⟨start', hstart', hbetter⟩ := handedOver_better hwf hpositions hlater (scaleAuction_pos hscale).2
    (scaleAuction_pos hscale') hstart
  -- Each request does to the later positions what it does to the planned ones.
  have hstep : ∀ action ∈ projection.actions, ∀ b c b', Better (InLot inputs) b c → applyAction inputs b action = .ok b' →
      ∃ c', applyAction inputs c action = .ok c' ∧ Better (InLot inputs) b' c' := by
    intro action haction b c b' hbc hb'
    refine applyRequest_better (fun index reserve hr => (hwf.rates_pos index reserve hr).1)
      (fun asset amount heq => ?_) hbc hb'
    cases action with
    | supplyCollateral a n =>
      cases heq
      exact (project_supplies hp haction).2.1.le
    | repay _ _ => cases heq
    | withdrawAll _ => cases heq
  obtain ⟨after, hafter, hend⟩ := foldlM_rel (Better (InLot inputs)) hstep hbetter hrun
  rw [← ha] at hafter
  exact ⟨projection, after, ⟨before, bind_ok_iff.2 ⟨scaled, hscale, hres⟩, hdata⟩, hcandidate.healthy,
    bind_ok_iff.2 ⟨scaled', hscale', bind_ok_iff.2 ⟨start', hstart', hafter⟩⟩, hend, scaled, scaled', hscale, hscale',
    hlater⟩

/-- The floors hold where it landed, at rates no lower than planned. -/
theorem LandedLate.within {terms : FillTerms} {inputs : FillInputs} {d : FillDraft} {ledger : Nat}
    {projection : Projection} {after : Positions} (hland : LandedLate terms inputs d ledger projection after)
    (hwf : inputs.WellFormed) (h : planFill terms inputs = .ok (.fill d)) {before reserves : BTreeMap Nat Reserve}
    (hbefore : valuedAt inputs d d.fillLedger = .ok before) (hreserves : valuedAt inputs d ledger = .ok reserves)
    (hkept : RatesKept before reserves after) :
    after.OwesNothing ∨ OkOr .overflow (calculatePositionData reserves inputs.prices after) ∧
      ∀ data, calculatePositionData reserves inputs.prices after = .ok data →
        data.HfAtLeast terms.healthFloor ∧ data.isHfUnder terms.healthFloor ≠ .ok true ∧
        terms.minCollateral ≤ data.collateralBase := by
  obtain ⟨before₀, hbefore₀, hdata⟩ := hland.planned
  obtain rfl : before₀ = before := Except.ok.inj (hbefore₀.symm.trans hbefore)
  rcases healthy_cases hland.healthy with hempty | ⟨hunder, hmin⟩
  · refine .inl fun index => ?_
    have howed := hland.better.owed index
    rw [Std.ExtTreeMap.isEmpty_iff] at hempty
    simp only [hempty, Std.ExtTreeMap.getD_empty] at howed
    omega
  right
  obtain ⟨scaled, scaled', hscale, hscale', -⟩ := hland.later
  simp only [valuedAt, hscale, hscale', bind_ok_iff, Except.ok.injEq, exists_eq_left'] at hbefore hreserves
  have hcut := valuationReserves_defaulted hbefore
  have hcut' := valuationReserves_defaulted hreserves
  have hdebts : SameDebts before₀ reserves := fun index => (hcut'.debts index).trans (hcut.debts index).symm
  have hdRates := hcut.debts.dRate_nonneg fun index reserve hr => (hwf.rates_pos index reserve hr).2.le
  have hbRates := fun index reserve hr => (hwf.rates_pos index reserve hr).1.le
  have hgrown : ∀ index, InLot inputs index → Priced reserves inputs.prices index := by
    rintro index ⟨asset, hindex, hlot⟩
    obtain ⟨positions, whole, hpositions, hwhole⟩ := planFill_whole h
    obtain ⟨-, -, -, hpriced, -⟩ := calculatePositionData_sums hwhole
    simp only [auctionPositions, bind_ok_iff, pure_ok_iff] at hpositions
    obtain ⟨_, hlots, _, -, rfl⟩ := hpositions
    have hheld := indexEntry_held hwf hlots hindex hlot
    exact (hpriced index (by dsimp only; omega)).of_sameDebts hcut'.debts
  obtain ⟨hanswers, hvalued⟩ := hland.better.valued hdebts hdRates (hcut'.rates hbRates) hkept hgrown hdata
  refine ⟨hanswers, fun data hdata' => ?_⟩
  obtain ⟨hmore, h0, hless, hscalar⟩ := hvalued data hdata'
  have hheld : ∀ (index : Nat) (held : Int), projection.positions.collateral[index]? = some held → 0 ≤ held := by
    intro index held hget
    have hindex := (hland.better.held index).1
    rwa [TreeMaps.getD_of_getElem? hget] at hindex
  obtain ⟨hbase0, hscalar₀⟩ := calculatePositionData_collateral_nonneg (hcut.rates hbRates) hheld hdata
  have hscalar0 : 0 ≤ projection.data.scalar := by
    rw [hscalar₀, inputs.prices.scalar_eq]
    exact Int.pow_nonneg (by decide)
  have hhf := (PositionData.hfAtLeast_of_isHfUnder (h0.trans hless) hunder).mono hmore hscalar hscalar0 h0 hless hbase0
  exact ⟨hhf, hhf.not_isHfUnder h0, hmin.trans hmore⟩

/-- A remainder keeps the default path shut, and past the ramps it stands
still. -/
theorem LandedLate.valued_same {terms : FillTerms} {inputs : FillInputs} {d : FillDraft} {ledger : Nat}
    {projection : Projection} {after : Positions} (hland : LandedLate terms inputs d ledger projection after)
    (hle : d.fillLedger ≤ ledger)
    (h : (∃ scaled, scaleAuction inputs.auction d.fillLedger d.percent.get = .ok scaled ∧ scaled.remaining.isSome = true) ∨
      inputs.auction.block + RAMP_END_BLOCKS ≤ d.fillLedger) :
    valuedAt inputs d ledger = valuedAt inputs d d.fillLedger := by
  obtain ⟨scaled, scaled', hscale, hscale', hlater⟩ := hland.later
  rcases h with ⟨found, hfound, hremains⟩ | hover
  · obtain rfl : scaled = found := Except.ok.inj (hscale.symm.trans hfound)
    have hsame : scaled.remaining.isNone = false := by simpa using hremains
    have hsame' : scaled'.remaining.isNone = false := hlater.remaining.trans hsame
    simp only [valuedAt, hscale, hscale', bind, Except.bind, valuationReserves, hsame, hsame', Bool.false_eq_true,
      ↓reduceIte]
  · simp only [valuedAt, scaleAuction_past_ramps hover hle]

/-- **Landing late keeps the promise, the default path apart.** The draft's
requests, landed at any later ledger, leave the filler owing nothing, or
within its floors there unless the valuation overflows, as long as nothing it
holds is in a reserve whose b-rate the later default path leaves lower than the
planned one. A draft that leaves a remainder, or one planned past the ramps, is
valued the same at every later ledger. -/
theorem landing_late {terms : FillTerms} {inputs : FillInputs} {d : FillDraft} {ledger : Nat}
    (hwf : inputs.WellFormed) (hrange : inputs.auction.InRange) (h : planFill terms inputs = .ok (.fill d))
    (hle : d.fillLedger ≤ ledger) :
    ∃ after, replayAt inputs d ledger = .ok after ∧
      (∀ before reserves, valuedAt inputs d d.fillLedger = .ok before → valuedAt inputs d ledger = .ok reserves →
        RatesKept before reserves after →
        after.OwesNothing ∨ OkOr .overflow (calculatePositionData reserves inputs.prices after) ∧
          ∀ data, calculatePositionData reserves inputs.prices after = .ok data →
            data.HfAtLeast terms.healthFloor ∧ data.isHfUnder terms.healthFloor ≠ .ok true ∧
            terms.minCollateral ≤ data.collateralBase) ∧
      ((∃ scaled, scaleAuction inputs.auction d.fillLedger d.percent.get = .ok scaled ∧ scaled.remaining.isSome = true) ∨
        inputs.auction.block + RAMP_END_BLOCKS ≤ d.fillLedger →
          valuedAt inputs d ledger = valuedAt inputs d d.fillLedger) := by
  obtain ⟨projection, after, hland⟩ := planFill_landedLate hwf hrange h hle
  exact ⟨after, hland.replayed, fun before reserves hbefore hreserves hkept =>
    hland.within hwf h hbefore hreserves hkept, hland.valued_same hle⟩

/-- The sample fill, planned for 1165, lands at 1300. -/
theorem landing_late_sample : ∃ d after, planFill sampleTerms sampleInputs = .ok (.fill d) ∧ d.fillLedger ≤ 1300 ∧
    replayAt sampleInputs d 1300 = .ok after ∧
    (after.OwesNothing ∨ OkOr .overflow (calculatePositionData sampleReserves samplePrices after) ∧
      ∀ data, calculatePositionData sampleReserves samplePrices after = .ok data →
        data.HfAtLeast 11000000 ∧ data.isHfUnder 11000000 ≠ .ok true ∧ 100 ≤ data.collateralBase) := by
  have hplan : (plannedDraft (planFill sampleTerms sampleInputs)).map (fun d => (d.fillLedger, d.percent.get)) =
      some (1165, 100) := by decide +kernel
  obtain ⟨d, hd, hboth⟩ := Option.map_eq_some_iff.1 hplan
  obtain ⟨hledger, hpercent⟩ := Prod.mk.inj hboth
  have hle : d.fillLedger ≤ 1300 := by omega
  have h := plannedDraft_some hd
  obtain ⟨after, hafter, hfloors, -⟩ := landing_late sampleInputs_wellFormed sampleAuction_inRange h hle
  have hvalued : ∀ ledger, ledger = 1165 ∨ ledger = 1300 → valuedAt sampleInputs d ledger = .ok sampleReserves := by
    rintro ledger (rfl | rfl)
    · simp only [valuedAt, hpercent]
      rfl
    · simp only [valuedAt, hpercent]
      rfl
  refine ⟨d, after, h, hle, hafter, hfloors sampleReserves sampleReserves (hvalued _ (.inl hledger))
    (hvalued _ (.inr rfl)) ?_⟩
  intro index reserve reserve' hr hr' _
  rw [hr] at hr'
  cases hr'
  exact le_rfl

/-- The sample pool with few suppliers of USDC, and a borrower whose lot is
all the collateral there is and whose debt is ten times the bid. -/
def lateInputs : FillInputs :=
  { sampleInputs with
    reserves := (∅ : BTreeMap Nat Reserve).insert 0
      { sampleReserve "USDC" 0 9500000 9500000 with
        data := { (sampleReserve "USDC" 0 9500000 9500000).data with bSupply := 5000000000 } }
      |>.insert 1 (sampleReserve "XLM" 1 7500000 7500000)
    borrower := { collateral := (∅ : BTreeMap Nat Int).insert 1 8000000000
                  liabilities := (∅ : BTreeMap Nat Int).insert 0 6000000000 } }

/-- Planned for 1165, while the borrower keeps a part of its lot, the fill is
healthy. LandedLate at 1200, with the lot whole, it leaves the borrower nothing to
answer with for the rest of the debt: the default path takes the USDC b-rate
down, and the filler, who still owes, is under its floor. -/
theorem landing_late_unhealthy : ∃ d after reserves data, planFill sampleTerms lateInputs = .ok (.fill d) ∧
    d.fillLedger = 1165 ∧ replayAt lateInputs d 1200 = .ok after ∧ after.liabilities.isEmpty = false ∧
    valuedAt lateInputs d 1200 = .ok reserves ∧ calculatePositionData reserves lateInputs.prices after = .ok data ∧
    data.isHfUnder sampleTerms.healthFloor = .ok true := by
  have hplan : (plannedDraft (planFill sampleTerms lateInputs)).map (fun d => (d.fillLedger, do
      let after ← replayAt lateInputs d 1200
      let reserves ← valuedAt lateInputs d 1200
      let data ← calculatePositionData reserves lateInputs.prices after
      let under ← data.isHfUnder sampleTerms.healthFloor
      pure (after.liabilities.isEmpty, under))) = some (1165, .ok (false, true)) := by decide +kernel
  obtain ⟨d, hd, hboth⟩ := Option.map_eq_some_iff.1 hplan
  obtain ⟨hledger, hrun⟩ := Prod.mk.inj hboth
  simp only [bind_ok_iff, pure_ok_iff, Prod.mk.injEq] at hrun
  obtain ⟨after, hafter, reserves, hreserves, data, hdata, under, hunder, hempty, rfl⟩ := hrun
  exact ⟨d, after, reserves, data, plannedDraft_some hd, hledger, hafter, hempty, hreserves, hdata, hunder⟩

end BlendLiquidator
