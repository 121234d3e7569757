/-
Whole fills and split ones. A fill closes the auction exactly where it takes all
of it, which is what decides whether the borrower's default is projected; and a
sequence of fills takes no more and pays no less than one at its end.
-/
import BlendLiquidator.AuctionFacts
import BlendLiquidator.FillSound
import BlendLiquidator.PositionFacts

namespace BlendLiquidator

open Results IntDiv

/-! ## A lot worth something -/

section Worthless

variable {reserves : BTreeMap Nat Reserve} {prices : OraclePrices}

theorem foldlM_addLiability_collateral {data data' : PositionData} {l : List (Nat × Int)}
    (h : l.foldlM (addLiability reserves prices) data = .ok data') : data'.collateralRaw = data.collateralRaw := by
  refine foldlM_inv (fun _ d => d.collateralRaw = data.collateralRaw) (fun entry _ d d' hd hstep => ?_) rfl h
  rcases addLiability_ok_iff.1 (show addLiability reserves prices d (entry.1, entry.2) = _ from hstep) with
    ⟨-, rfl⟩ | ⟨-, worth, -, -, -, rfl⟩
  · exact hd
  · exact hd

theorem foldlM_addCollateral_zero {data data' : PositionData} {l : List (Nat × Int)} (hzero : ∀ e ∈ l, e.2 = 0)
    (h : l.foldlM (addCollateral reserves prices) data = .ok data') : data' = data := by
  refine (foldlM_inv (fun rest d => d = data ∧ ∀ e ∈ rest, e.2 = 0) (fun entry rest d d' hd hstep => ?_)
    ⟨rfl, hzero⟩ h).1
  have hentry : entry.2 = 0 := hd.2 entry List.mem_cons_self
  simp only [addCollateral, hentry, if_true, pure_ok_iff] at hstep
  exact ⟨hstep ▸ hd.1, fun e he => hd.2 e (List.mem_cons_of_mem entry he)⟩

theorem foldlM_indexEntry_zero {assetIndex : BTreeMap String Nat} {l : List (String × Int)}
    {positions : BTreeMap Nat Int} (hzero : ∀ e ∈ l, e.2 = 0)
    (h : l.foldlM (indexEntry assetIndex) ∅ = .ok positions) : ∀ e ∈ positions.toList, e.2 = 0 := by
  have hall : ∀ (index : Nat) (held : Int), positions[index]? = some held → held = 0 := by
    refine (foldlM_inv (fun rest (p : BTreeMap Nat Int) => (∀ (index : Nat) (held : Int), p[index]? = some held → held = 0) ∧
      ∀ e ∈ rest, e.2 = 0) (fun entry rest p p' hp hstep => ?_) ⟨by simp, hzero⟩ h).1
    refine ⟨fun index held hheld => ?_, fun e he => hp.2 e (List.mem_cons_of_mem entry he)⟩
    unfold indexEntry at hstep
    split at hstep
    · cases hstep
      rw [TreeMaps.getElem?_insert] at hheld
      split at hheld
      · cases hheld
        exact hp.2 entry List.mem_cons_self
      · exact hp.1 index held hheld
    · cases hstep
  intro e he
  exact hall e.1 e.2 (Std.ExtTreeMap.mem_toList_iff_getElem?_eq_some.1 he)

/-- A lot that is worth something holds something. -/
theorem lot_of_worth {auction : AuctionData} {assetIndex : BTreeMap String Nat} {positions : Positions}
    {whole : PositionData} (hpositions : auctionPositions auction assetIndex = .ok positions)
    (hwhole : calculatePositionData reserves prices positions = .ok whole) (hworth : whole.collateralRaw ≠ 0) :
    ∃ (asset : String) (amount : Int), auction.lot[asset]? = some amount ∧ amount ≠ 0 := by
  by_contra hnone
  have hzero : ∀ e ∈ auction.lot.toList, e.2 = 0 := by
    intro e he
    by_contra hne
    exact hnone ⟨e.1, e.2, Std.ExtTreeMap.mem_toList_iff_getElem?_eq_some.1 he, hne⟩
  simp only [auctionPositions, bind_ok_iff, pure_ok_iff] at hpositions
  obtain ⟨collateral, hcollateral, liabilities, -, rfl⟩ := hpositions
  simp only [calculatePositionData, bind_ok_iff] at hwhole
  obtain ⟨mid, hmid, hrest⟩ := hwhole
  have hsame := foldlM_addCollateral_zero (foldlM_indexEntry_zero hzero hcollateral) hmid
  rw [foldlM_addLiability_collateral hrest, hsame] at hworth
  exact hworth rfl

end Worthless

/-! ## Only a whole fill closes the auction -/

theorem getD_eq_zero_of_isEmpty {side : BTreeMap String Int} (h : side.isEmpty = true) (asset : String) :
    side.getD asset 0 = 0 := by
  rw [Std.ExtTreeMap.isEmpty_iff] at h
  simp [h]

theorem AllPos.isEmpty_of_getD {side : BTreeMap String Int} (hpos : AllPos side)
    (h : ∀ asset, side.getD asset 0 = 0) : side.isEmpty = true := by
  rw [Std.ExtTreeMap.isEmpty_iff, ← Std.ExtTreeMap.toList_eq_nil_iff, List.eq_nil_iff_forall_not_mem]
  rintro ⟨asset, amount⟩ hm
  have hsome := Std.ExtTreeMap.mem_toList_iff_getElem?_eq_some.1 hm
  have hamount := hpos asset amount hsome
  rw [← TreeMaps.getD_of_getElem? hsome, h asset] at hamount
  omega

theorem Scales.none_of_whole {auction : AuctionData} {block : Nat} {scaled : ScaledAuction}
    (h : Scales auction block 100 scaled) : scaled.remaining = none := by
  have hpercent : percentScaled 100 = SCALAR_7 := rfl
  rw [h.none_iff, AuctionData.isEmpty, Bool.and_eq_true]
  refine ⟨h.stored.2.2.1.isEmpty_of_getD fun asset => ?_, h.stored.2.2.2.isEmpty_of_getD fun asset => ?_⟩
  · rw [h.bidLeft, hpercent, share_whole, Int.sub_self]
  · rw [h.lotLeft, hpercent, share_whole, Int.sub_self]

/-- A lot is rounded down, so less than all of it leaves some. -/
theorem Scales.some_of_part {auction : AuctionData} {block percent : Nat} {scaled : ScaledAuction} {asset : String}
    (h : Scales auction block percent scaled) (hpercent : percent < 100) (hlot : 0 < auction.lot.getD asset 0) :
    scaled.remaining ≠ none := by
  intro hnone
  have hempty := h.none_iff.1 hnone
  rw [AuctionData.isEmpty, Bool.and_eq_true] at hempty
  have hleft := h.lotLeft asset
  rw [getD_eq_zero_of_isEmpty hempty.2] at hleft
  have hpart : percentScaled percent < SCALAR_7 := by
    simp only [percentScaled, SCALAR_7]
    omega
  have hless := share_floor_lt hlot hpart
  omega

/-- The share of an auction that a percent takes, before the block's modifier. -/
def basesTaken (auction : AuctionData) (percent : Nat) (asset : String) : Int × Int :=
  (share .ceil (auction.bid.getD asset 0) (percentScaled percent),
    share .floor (auction.lot.getD asset 0) (percentScaled percent))

/-- Scaling answers; only a whole fill leaves nothing; what is left is what the
percent did not take, nothing that is not positive is stored, and a bid is gone
where its ramp ends. -/
theorem scaleAuction_exact {auction : AuctionData} {reserves : BTreeMap Nat Reserve} {prices : OraclePrices}
    {assetIndex : BTreeMap String Nat} {positions : Positions} {whole : PositionData} {block percent : Nat}
    (hrange : auction.InRange) (hpositions : auctionPositions auction assetIndex = .ok positions)
    (hwhole : calculatePositionData reserves prices positions = .ok whole) (hworth : whole.collateralRaw ≠ 0)
    (hblock : auction.block ≤ block) (h1 : 1 ≤ percent) (h100 : percent ≤ 100) :
    ∃ scaled, scaleAuction auction block percent = .ok scaled ∧
      (scaled.remaining = none ↔ percent = 100) ∧
      (∀ asset, (basesTaken auction percent asset).1 + scaled.left.bid.getD asset 0 = auction.bid.getD asset 0 ∧
        (basesTaken auction percent asset).2 + scaled.left.lot.getD asset 0 = auction.lot.getD asset 0 ∧
        scaled.toFill.bid.getD asset 0 =
          share .ceil (basesTaken auction percent asset).1 (bidModifier (block - auction.block)) ∧
        scaled.toFill.lot.getD asset 0 =
          share .floor (basesTaken auction percent asset).2 (lotModifier (block - auction.block))) ∧
      AllPos scaled.toFill.bid ∧ AllPos scaled.toFill.lot ∧ AllPos scaled.left.bid ∧ AllPos scaled.left.lot ∧
      (auction.block + RAMP_END_BLOCKS ≤ block → scaled.toFill.bid.isEmpty = true) ∧
      ∀ inputs, valuationReserves inputs scaled =
        if percent = 100 then defaultedReserves inputs scaled.toFill else .ok inputs.reserves := by
  obtain ⟨scaled, hscaled, h⟩ := scaleAuction_scales hrange hblock h1 h100
  have hclosed : scaled.remaining = none ↔ percent = 100 := by
    refine ⟨fun hnone => ?_, fun hall => ?_⟩
    · obtain ⟨asset, amount, hamount, hne⟩ := lot_of_worth hpositions hwhole hworth
      have hpos : 0 < auction.lot.getD asset 0 := by
        rw [TreeMaps.getD_of_getElem? hamount]
        have := (hrange.lot asset amount hamount).1
        omega
      by_contra hpart
      exact h.some_of_part (by omega) hpos hnone
    · subst hall
      exact h.none_of_whole
  refine ⟨scaled, hscaled, hclosed, fun asset => ⟨?_, ?_, h.bid asset, h.lot asset⟩,
    h.stored.1, h.stored.2.1, h.stored.2.2.1, h.stored.2.2.2, fun hend => ?_, fun inputs => ?_⟩
  · rw [h.bidLeft]
    simp only [basesTaken]
    omega
  · rw [h.lotLeft]
    simp only [basesTaken]
    omega
  · have hgone : bidModifier (block - auction.block) = 0 := by
      rw [bidModifier_eq]
      simp only [RAMP_END_BLOCKS] at hend
      simp only [PER_BLOCK_SCALAR]
      omega
    refine h.stored.1.isEmpty_of_getD fun asset => ?_
    rw [h.bid, hgone]
    simp [share, exactQuotient, ceilDiv]
  · unfold valuationReserves
    by_cases hall : percent = 100
    · rw [if_pos hall, hclosed.2 hall]
      rfl
    · rw [if_neg hall, if_neg fun hnone => hall (hclosed.1 (Option.isNone_iff_eq_none.1 hnone))]

theorem sampleAuction_inRange : sampleInputs.auction.InRange := by
  constructor
  all_goals
    intro asset amount h
    simp only [sampleInputs, TreeMaps.getElem?_insert] at h
    split at h
    · cases h
      decide
    · simp at h

/-- The sample auction, 40 percent of it taken 450 ledgers on. -/
theorem scaleAuction_exact_sample : ∃ scaled, scaleAuction sampleInputs.auction 1450 40 = .ok scaled ∧
    (scaled.remaining = none ↔ 40 = 100) ∧ scaled.toFill.bid.isEmpty = true := by
  have hworth : ∃ positions whole, auctionPositions sampleInputs.auction sampleInputs.assetIndex = .ok positions ∧
      calculatePositionData sampleInputs.reserves sampleInputs.prices positions = .ok whole ∧
        whole.collateralRaw ≠ 0 := ⟨_, _, rfl, rfl, by decide⟩
  obtain ⟨positions, whole, hpositions, hwhole, hne⟩ := hworth
  obtain ⟨scaled, hscaled, hclosed, -, -, -, -, -, hgone, -⟩ := @scaleAuction_exact _ _ _ _ _ _ 1450 40 sampleAuction_inRange
    hpositions hwhole hne (by decide) (by decide) (by decide)
  exact ⟨scaled, hscaled, hclosed, hgone (by decide)⟩

/-! ## Fills one after another -/

/-- Fills, by block and percent, each of what the one before it left: what each
exchanged, and what the last left. -/
inductive Fills : Option AuctionData → List (Nat × Nat) → List AuctionData → Option AuctionData → Prop
  | done (left : Option AuctionData) : Fills left [] [] left
  | next {auction : AuctionData} {block percent : Nat} {scaled : ScaledAuction} {fills : List (Nat × Nat)}
      {taken : List AuctionData} {left : Option AuctionData} (fill : scaleAuction auction block percent = .ok scaled)
      (rest : Fills scaled.remaining fills taken left) :
      Fills (some auction) ((block, percent) :: fills) (scaled.toFill :: taken) left

/-- What the fills received of an asset, and what they paid of it. -/
def totalLot (taken : List AuctionData) (asset : String) : Int := (taken.map fun fill => fill.lot.getD asset 0).sum

def totalBid (taken : List AuctionData) (asset : String) : Int := (taken.map fun fill => fill.bid.getD asset 0).sum

theorem scaleAuction_ok {auction : AuctionData} {block percent : Nat} {scaled : ScaledAuction}
    (hrange : auction.InRange) (h : scaleAuction auction block percent = .ok scaled) :
    auction.block ≤ block ∧ Scales auction block percent scaled := by
  have hpercent : ¬(percent = 0 ∨ percent > 100) := by
    intro hbad
    simp [scaleAuction, hbad, throw, throwThe, MonadExceptOf.throw, bind, Except.bind] at h
  have hblock : ¬block < auction.block := by
    intro hbad
    simp [scaleAuction, hpercent, hbad, throw, throwThe, MonadExceptOf.throw, bind, Except.bind] at h
  obtain ⟨scaled', hscaled', hscales⟩ := scaleAuction_scales hrange (Nat.not_lt.1 hblock)
    (by omega : 1 ≤ percent) (by omega)
  rw [h] at hscaled'
  cases hscaled'
  exact ⟨Nat.not_lt.1 hblock, hscales⟩

theorem Scales.left_inRange {auction : AuctionData} {block percent : Nat} {scaled : ScaledAuction}
    (h : Scales auction block percent scaled) (hrange : auction.InRange) : scaled.left.InRange := by
  have hp0 := percentScaled_nonneg percent
  refine ⟨fun asset amount hamount => ?_, fun asset amount hamount => ?_⟩
  · have hvalue := h.bidLeft asset
    rw [TreeMaps.getD_of_getElem? hamount] at hvalue
    have hbase : 0 ≤ share .ceil (auction.bid.getD asset 0) (percentScaled percent) :=
      share_nonneg (hrange.bid.getD asset).1 hp0
    have hpos := h.stored.2.2.1 asset amount hamount
    have hmax := (hrange.bid.getD asset).2
    omega
  · have hvalue := h.lotLeft asset
    rw [TreeMaps.getD_of_getElem? hamount] at hvalue
    have hbase : 0 ≤ share .floor (auction.lot.getD asset 0) (percentScaled percent) :=
      share_nonneg (hrange.lot.getD asset).1 hp0
    have hpos := h.stored.2.2.2 asset amount hamount
    have hmax := (hrange.lot.getD asset).2
    omega

/-- Of an auction that began at `start`, fills up to `last` receive no more of an
asset than the lot's share there; where they leave nothing, they pay no less
than the bid's. -/
theorem Fills.bounds {auction left : Option AuctionData} {fills : List (Nat × Nat)} {taken : List AuctionData}
    {start last : Nat} (h : Fills auction fills taken left) (hrange : (auction.getD {}).InRange)
    (hstart : ∀ a, auction = some a → a.block = start) (hlast : ∀ fill ∈ fills, fill.1 ≤ last) (asset : String) :
    totalLot taken asset ≤ share .floor ((auction.getD {}).lot.getD asset 0) (lotModifier (last - start)) ∧
      (left = none →
        share .ceil ((auction.getD {}).bid.getD asset 0) (bidModifier (last - start)) ≤ totalBid taken asset) := by
  induction h with
  | done left =>
    refine ⟨share_nonneg (hrange.lot.getD asset).1 (lotModifier_range _).1, fun hnone => ?_⟩
    subst hnone
    simp [totalBid]
  | @next auction block percent scaled fills taken left fill rest ih =>
    simp only [Option.getD_some] at hrange ⊢
    obtain ⟨-, hscales⟩ := scaleAuction_ok hrange fill
    have hp0 := percentScaled_nonneg percent
    have hblock : block - auction.block ≤ last - start := by
      have := hlast (block, percent) List.mem_cons_self
      have := hstart auction rfl
      simp only at *
      omega
    obtain ⟨hlots, hbids⟩ := ih (hscales.left_inRange hrange)
      (fun a ha => (hscales.block a ha).trans (hstart auction rfl))
      fun fill hfill => hlast fill (List.mem_cons_of_mem _ hfill)
    -- The part taken and the part left make the whole, at the last block's modifier.
    constructor
    · have hbase : 0 ≤ share .floor (auction.lot.getD asset 0) (percentScaled percent) :=
        share_nonneg (hrange.lot.getD asset).1 hp0
      calc totalLot (scaled.toFill :: taken) asset
          = scaled.toFill.lot.getD asset 0 + totalLot taken asset := by simp [totalLot]
        _ ≤ share .floor (share .floor (auction.lot.getD asset 0) (percentScaled percent)) (lotModifier (last - start)) +
              share .floor (scaled.left.lot.getD asset 0) (lotModifier (last - start)) := by
            rw [hscales.lot]
            exact Int.add_le_add (share_mono hbase (lotModifier_mono hblock)) hlots
        _ ≤ share .floor (auction.lot.getD asset 0) (lotModifier (last - start)) := by
            refine share_floor_add.trans (le_of_eq ?_)
            rw [hscales.lotLeft]
            congr 1
            omega
    · intro hnone
      have hbase : 0 ≤ share .ceil (auction.bid.getD asset 0) (percentScaled percent) :=
        share_nonneg (hrange.bid.getD asset).1 hp0
      calc share .ceil (auction.bid.getD asset 0) (bidModifier (last - start))
          ≤ share .ceil (share .ceil (auction.bid.getD asset 0) (percentScaled percent)) (bidModifier (last - start)) +
              share .ceil (scaled.left.bid.getD asset 0) (bidModifier (last - start)) := by
            refine le_trans (le_of_eq ?_) share_ceil_add
            rw [hscales.bidLeft]
            congr 1
            omega
        _ ≤ scaled.toFill.bid.getD asset 0 + totalBid taken asset := by
            rw [hscales.bid]
            exact Int.add_le_add (share_mono hbase (bidModifier_anti hblock)) (hbids hnone)
        _ = totalBid (scaled.toFill :: taken) asset := by simp [totalBid]

/-- Splitting a fill never gains: what the fills receive of any asset is at most
what one whole fill at the last block pays, and where they leave nothing, what
they pay is at least what that fill costs. -/
theorem fills_never_gain {auction : AuctionData} {fills : List (Nat × Nat)} {taken : List AuctionData}
    {left : Option AuctionData} {last : Nat × Nat} (hrange : auction.InRange)
    (h : Fills (some auction) fills taken left) (hblocks : (fills.map Prod.fst).Pairwise (· ≤ ·))
    (hlast : fills.getLast? = some last) :
    ∃ whole, scaleAuction auction last.1 100 = .ok whole ∧ ∀ asset,
      totalLot taken asset ≤ whole.toFill.lot.getD asset 0 ∧
      (left = none → whole.toFill.bid.getD asset 0 ≤ totalBid taken asset) := by
  obtain ⟨init, rfl⟩ := List.getLast?_eq_some_iff.1 hlast
  have hmax : ∀ fill ∈ init ++ [last], fill.1 ≤ last.1 := by
    intro fill hfill
    rcases List.mem_append.1 hfill with hfill | hfill
    · rw [List.map_append, List.pairwise_append] at hblocks
      exact hblocks.2.2 fill.1 (List.mem_map_of_mem hfill) last.1 (by simp)
    · rw [List.mem_singleton] at hfill
      rw [hfill]
  have hstart : auction.block ≤ last.1 := by
    obtain ⟨first, fills, hfills⟩ : ∃ first fills, init ++ [last] = first :: fills :=
      List.exists_cons_of_ne_nil (by simp)
    rw [hfills] at h hmax
    cases h with
    | next fill rest => exact (scaleAuction_ok hrange fill).1.trans (hmax _ List.mem_cons_self)
  obtain ⟨whole, hwhole, hscales⟩ := scaleAuction_scales hrange hstart (by decide : 1 ≤ 100) le_rfl
  have hpercent : percentScaled 100 = SCALAR_7 := rfl
  refine ⟨whole, hwhole, fun asset => ?_⟩
  rw [hscales.lot, hscales.bid, hpercent, share_whole, share_whole]
  exact h.bounds hrange (fun a ha => by cases ha; rfl) hmax asset

/-- The sample auction in three fills, the last of the rest: 640 XLM are received
for 50.91 USDC, where one fill at the end pays 800 for 30. -/
theorem fills_never_gain_sample : ∃ taken whole,
    Fills (some sampleInputs.auction) [(1100, 40), (1250, 99), (1300, 100)] taken none ∧
    scaleAuction sampleInputs.auction 1300 100 = .ok whole ∧
    (totalLot taken "XLM" = 6400000000 ∧ whole.toFill.lot.getD "XLM" 0 = 8000000000 ∧
      totalLot taken "XLM" ≤ whole.toFill.lot.getD "XLM" 0) ∧
    (whole.toFill.bid.getD "USDC" 0 = 300000000 ∧ totalBid taken "USDC" = 509100000 ∧
      whole.toFill.bid.getD "USDC" 0 ≤ totalBid taken "USDC") := by
  have hfills : ∃ taken, Fills (some sampleInputs.auction) [(1100, 40), (1250, 99), (1300, 100)] taken none ∧
      totalLot taken "XLM" = 6400000000 ∧ totalBid taken "USDC" = 509100000 := by
    have hruns : ∃ first second third left left', scaleAuction sampleInputs.auction 1100 40 = .ok first ∧
        first.remaining = some left ∧ scaleAuction left 1250 99 = .ok second ∧ second.remaining = some left' ∧
        scaleAuction left' 1300 100 = .ok third ∧ third.remaining = none ∧
        totalLot [first.toFill, second.toFill, third.toFill] "XLM" = 6400000000 ∧
        totalBid [first.toFill, second.toFill, third.toFill] "USDC" = 509100000 :=
      ⟨_, _, _, _, _, rfl, rfl, rfl, rfl, rfl, rfl, rfl, rfl⟩
    obtain ⟨first, second, third, left, left', h1, hl1, h2, hl2, h3, hl3, htotals⟩ := hruns
    refine ⟨[first.toFill, second.toFill, third.toFill], .next h1 ?_, htotals⟩
    rw [hl1]
    refine .next h2 ?_
    rw [hl2]
    refine .next h3 ?_
    rw [hl3]
    exact .done none
  have hsides : ∃ whole, scaleAuction sampleInputs.auction 1300 100 = .ok whole ∧
      whole.toFill.lot.getD "XLM" 0 = 8000000000 ∧ whole.toFill.bid.getD "USDC" 0 = 300000000 := ⟨_, rfl, rfl, rfl⟩
  obtain ⟨taken, htaken, hlot, hbid⟩ := hfills
  obtain ⟨whole, hwhole, hbounds⟩ := fills_never_gain sampleAuction_inRange htaken (by decide) rfl
  obtain ⟨whole', hwhole', hpays, hcosts⟩ := hsides
  obtain rfl := Except.ok.inj (hwhole.symm.trans hwhole')
  exact ⟨taken, whole, htaken, hwhole, ⟨hlot, hpays, (hbounds "XLM").1⟩, hcosts, hbid, (hbounds "USDC").2 rfl⟩

end BlendLiquidator
