/-
Facts about scaling: neither side of what a fill exchanges, nor of what it
leaves, stores a zero or a negative amount; what is left is what was not taken;
only a whole fill leaves nothing; and fills one after another do no better than
one at the end.
-/
import Mathlib.Algebra.Order.BigOperators.Group.List
import Mathlib.Tactic.Linarith
import BlendLiquidator.Auction
import BlendLiquidator.FixedFacts
import BlendLiquidator.TreeMaps

namespace BlendLiquidator

open Results IntDiv

/-- Every stored amount is positive. -/
def AllPos (side : BTreeMap String Int) : Prop :=
  ∀ (asset : String) (amount : Int), side[asset]? = some amount → 0 < amount

theorem AllPos.empty : AllPos ∅ := by
  intro asset amount h
  simp at h

theorem AllPos.insert {side : BTreeMap String Int} {asset : String} {amount : Int} (h : AllPos side)
    (hpos : 0 < amount) : AllPos (side.insert asset amount) := by
  intro a b hb
  rw [Std.ExtTreeMap.getElem?_insert] at hb
  split at hb
  · cases hb; exact hpos
  · exact h a b hb

theorem AllPos.toList {side : BTreeMap String Int} (h : AllPos side) :
    ∀ entry ∈ side.toList, 0 < entry.2 := by
  rintro ⟨asset, amount⟩ hm
  exact h asset amount (Std.ExtTreeMap.mem_toList_iff_getElem?_eq_some.1 hm)

theorem splitAsset_pos {round percentScaled scale split split'} {entry : String × Int}
    (h : splitAsset round percentScaled scale split entry = .ok split')
    (hs : AllPos split.toFill ∧ AllPos split.remaining) :
    AllPos split'.toFill ∧ AllPos split'.remaining := by
  simp only [splitAsset, bind_ok_iff, pure_ok_iff] at h
  obtain ⟨base, -, left, -, scaled, -, rfl⟩ := h
  constructor
  · dsimp only
    split
    · next hpos => exact hs.1.insert hpos
    · exact hs.1
  · dsimp only
    split
    · next hpos => exact hs.2.insert hpos
    · exact hs.2

theorem splitSide_pos {round percentScaled scale} {side : BTreeMap String Int} {split : Split}
    (h : side.toList.foldlM (splitAsset round percentScaled scale) {} = .ok split) :
    AllPos split.toFill ∧ AllPos split.remaining :=
  foldlM_inv (fun _ s => AllPos s.toFill ∧ AllPos s.remaining)
    (fun _ _ _ _ hs hf => splitAsset_pos hf hs) ⟨AllPos.empty, AllPos.empty⟩ h

/-! ## Shares -/

/-- The share of `amount` that a 7-decimal factor gives, rounded. -/
def share (rounding : Rounding) (amount factor : Int) : Int := exactQuotient (amount * factor) SCALAR_7 rounding

section Shares

variable {rounding : Rounding} {x y a b : Int}

theorem mulDiv_share : mulDiv x a SCALAR_7 rounding = narrow (share rounding x a) := mulDiv_eq SCALAR_7_pos

@[simp] theorem share_zero : share rounding 0 a = 0 := by
  cases rounding <;> simp [share, exactQuotient, ceilDiv]

theorem share_nonneg (hx : 0 ≤ x) (ha : 0 ≤ a) : 0 ≤ share rounding x a := by
  have h : 0 ≤ x * a := Int.mul_nonneg hx ha
  cases rounding with
  | floor => exact Int.ediv_nonneg h SCALAR_7_pos.le
  | ceil => exact ceilDiv_nonneg SCALAR_7_pos h

theorem share_mono (hx : 0 ≤ x) (hab : a ≤ b) : share rounding x a ≤ share rounding x b := by
  have h : x * a ≤ x * b := Int.mul_le_mul_of_nonneg_left hab hx
  cases rounding with
  | floor => exact Int.ediv_le_ediv SCALAR_7_pos h
  | ceil => exact ceilDiv_mono SCALAR_7_pos h

@[simp] theorem share_whole : share rounding x SCALAR_7 = x := by
  have hfloor : x * SCALAR_7 / SCALAR_7 = x := Int.mul_ediv_cancel x SCALAR_7_pos.ne'
  have hceil : -x * SCALAR_7 / SCALAR_7 = -x := Int.mul_ediv_cancel (-x) SCALAR_7_pos.ne'
  cases rounding with
  | floor => exact hfloor
  | ceil =>
    show -(-(x * SCALAR_7) / SCALAR_7) = x
    rw [← Int.neg_mul, hceil, Int.neg_neg]

theorem share_le (hx : 0 ≤ x) (ha : a ≤ SCALAR_7) : share rounding x a ≤ x := by
  have h : share rounding x a ≤ share rounding x SCALAR_7 := share_mono hx ha
  rwa [share_whole] at h

/-- Less than the whole, rounded down, is less. -/
theorem share_floor_lt (hx : 0 < x) (ha : a < SCALAR_7) : share .floor x a < x := by
  have h : x * a < x * SCALAR_7 := Int.mul_lt_mul_of_pos_left ha hx
  exact Int.ediv_lt_of_lt_mul SCALAR_7_pos h

/-- Parts rounded down make no more than the whole. -/
theorem share_floor_add : share .floor x a + share .floor y a ≤ share .floor (x + y) a := by
  have hx : share .floor x a * SCALAR_7 ≤ x * a := ediv_mul_le' SCALAR_7_pos
  have hy : share .floor y a * SCALAR_7 ≤ y * a := ediv_mul_le' SCALAR_7_pos
  refine (Int.le_ediv_iff_mul_le SCALAR_7_pos).2 ?_
  rw [Int.add_mul, Int.add_mul]
  exact Int.add_le_add hx hy

/-- Parts rounded up, no less. -/
theorem share_ceil_add : share .ceil (x + y) a ≤ share .ceil x a + share .ceil y a := by
  have hx : x * a ≤ share .ceil x a * SCALAR_7 := le_ceilDiv_mul SCALAR_7_pos
  have hy : y * a ≤ share .ceil y a * SCALAR_7 := le_ceilDiv_mul SCALAR_7_pos
  refine (ceilDiv_le_iff SCALAR_7_pos).2 ?_
  rw [Int.add_mul, Int.add_mul]
  exact Int.add_le_add hx hy

end Shares

/-! ## One side -/

/-- Every amount is a non-negative `i128`. -/
def InRange (side : BTreeMap String Int) : Prop :=
  ∀ (asset : String) (amount : Int), side[asset]? = some amount → 0 ≤ amount ∧ amount ≤ i128Max

theorem AllPos.getD_nonneg {side : BTreeMap String Int} (h : AllPos side) (asset : String) :
    0 ≤ side.getD asset 0 := by
  rw [Std.ExtTreeMap.getD_eq_getD_getElem?]
  cases hs : side[asset]? with
  | none => exact le_rfl
  | some amount => exact (h asset amount hs).le

theorem InRange.getD {side : BTreeMap String Int} (h : InRange side) (asset : String) :
    0 ≤ side.getD asset 0 ∧ side.getD asset 0 ≤ i128Max := by
  rw [Std.ExtTreeMap.getD_eq_getD_getElem?]
  cases hs : side[asset]? with
  | none => exact ⟨le_rfl, by decide⟩
  | some amount => exact h asset amount hs

section Sides

variable {rounding : Rounding} {percent scale : Int} {side : BTreeMap String Int}

theorem splitAsset_total {entry : String × Int} (h0 : 0 ≤ entry.2) (hmax : entry.2 ≤ i128Max) (hp0 : 0 ≤ percent)
    (hp : percent ≤ SCALAR_7) (hs0 : 0 ≤ scale) (hs : scale ≤ SCALAR_7) (split : Split) :
    ∃ split', splitAsset (fun x y z => mulDiv x y z rounding) percent scale split entry = .ok split' := by
  have hbase0 : 0 ≤ share rounding entry.2 percent := share_nonneg h0 hp0
  have hbase : share rounding entry.2 percent ≤ entry.2 := share_le h0 hp
  have hscaled : share rounding (share rounding entry.2 percent) scale ≤ entry.2 := (share_le hbase0 hs).trans hbase
  simp only [splitAsset, mulDiv_share, narrow_of_le hbase0 hbase hmax,
    narrow_of_le (Int.sub_nonneg_of_le hbase) (Int.sub_le_self entry.2 hbase0) hmax,
    narrow_of_le (share_nonneg hbase0 hs0) hscaled hmax, bind, Except.bind]
  exact ⟨_, rfl⟩

/-- An asset's amounts on the two sides of a split. -/
def Split.amounts (split : Split) (asset : String) : Int × Int :=
  (split.toFill.getD asset 0, split.remaining.getD asset 0)

/-- What an asset's own pass of the loop makes of its amounts. -/
def Shared (rounding : Rounding) (percent scale amount : Int) (before after : Int × Int) : Prop :=
  let base := share rounding amount percent
  after = (if share rounding base scale > 0 then share rounding base scale else before.1,
    if amount - base > 0 then amount - base else before.2)

theorem splitAsset_shared {split split' : Split} {entry : String × Int}
    (h : splitAsset (fun x y z => mulDiv x y z rounding) percent scale split entry = .ok split') :
    Shared rounding percent scale entry.2 (split.amounts entry.1) (split'.amounts entry.1) ∧
      ∀ a, entry.1 ≠ a → split'.amounts a = split.amounts a := by
  simp only [splitAsset, mulDiv_share, bind_ok_iff, pure_ok_iff, narrow_ok_iff] at h
  obtain ⟨base, ⟨rfl, -⟩, left, ⟨rfl, -⟩, scaled, ⟨rfl, -⟩, rfl⟩ := h
  refine ⟨?_, fun a ha => ?_⟩
  · unfold Shared Split.amounts
    simp only [apply_ite (fun m : BTreeMap String Int => m.getD entry.1 0), TreeMaps.getD_insert, if_true]
  · unfold Split.amounts
    simp only [apply_ite (fun m : BTreeMap String Int => m.getD a 0), TreeMaps.getD_insert, if_neg ha, ite_self]

/-- One side of a fill: of each asset the share the percent takes, and of that
the share the block's modifier exchanges. -/
theorem splitSide_shares (rounding : Rounding) (hside : InRange side) (hp0 : 0 ≤ percent) (hp : percent ≤ SCALAR_7)
    (hs0 : 0 ≤ scale) (hs : scale ≤ SCALAR_7) :
    ∃ split, side.toList.foldlM (splitAsset (fun x y z => mulDiv x y z rounding) percent scale) {} = .ok split ∧
      ∀ asset, split.toFill.getD asset 0 = share rounding (share rounding (side.getD asset 0) percent) scale ∧
        split.remaining.getD asset 0 = side.getD asset 0 - share rounding (side.getD asset 0) percent := by
  obtain ⟨split, hsplit⟩ : ∃ split,
      side.toList.foldlM (splitAsset (fun x y z => mulDiv x y z rounding) percent scale) {} = .ok split := by
    refine foldlM_total fun entry hentry acc => ?_
    obtain ⟨h0, hmax⟩ := hside entry.1 entry.2 (Std.ExtTreeMap.mem_toList_iff_getElem?_eq_some.1 hentry)
    exact splitAsset_total h0 hmax hp0 hp hs0 hs acc
  refine ⟨split, hsplit, fun asset => ?_⟩
  have hlook := TreeMaps.foldlM_toList_at (fun _ _ _ h => splitAsset_shared h) hsplit asset
  have hempty : (({} : Split).amounts asset) = (0, 0) := by simp [Split.amounts]
  rw [hempty] at hlook
  cases hasset : side[asset]? with
  | none =>
    have hzero : side.getD asset 0 = 0 := by rw [Std.ExtTreeMap.getD_eq_getD_getElem?, hasset]; rfl
    rw [hasset] at hlook
    have hboth : split.amounts asset = (0, 0) := hlook
    rw [hzero]
    simpa [Split.amounts] using hboth
  | some amount =>
    rw [hasset] at hlook
    obtain ⟨h0, hmax⟩ := hside asset amount hasset
    have hbase0 : 0 ≤ share rounding amount percent := share_nonneg h0 hp0
    have hbase : share rounding amount percent ≤ amount := share_le h0 hp
    have hscaled : 0 ≤ share rounding (share rounding amount percent) scale := share_nonneg hbase0 hs0
    have hboth : split.amounts asset = (_, _) := hlook
    obtain ⟨htaken, hleft⟩ := Prod.mk.inj hboth
    rw [TreeMaps.getD_of_getElem? hasset, htaken, hleft]
    constructor
    · by_cases hpos : share rounding (share rounding amount percent) scale > 0
      · rw [if_pos hpos]
      · rw [if_neg hpos]
        omega
    · by_cases hpos : amount - share rounding amount percent > 0
      · rw [if_pos hpos]
      · rw [if_neg hpos]
        omega

end Sides

/-! ## The whole auction -/

/-- Both sides are `i128`s, none negative. -/
structure AuctionData.InRange (auction : AuctionData) : Prop where
  bid : BlendLiquidator.InRange auction.bid
  lot : BlendLiquidator.InRange auction.lot

/-- What a fill leaves, an empty auction where it leaves none. -/
def ScaledAuction.left (scaled : ScaledAuction) : AuctionData := scaled.remaining.getD {}

/-- A percent at 7 decimals. -/
def percentScaled (percent : Nat) : Int := (percent : Int) * 100000

theorem percentScaled_nonneg (percent : Nat) : 0 ≤ percentScaled percent := by
  unfold percentScaled
  omega

theorem percentScaled_le {percent : Nat} (h : percent ≤ 100) : percentScaled percent ≤ SCALAR_7 := by
  simp only [percentScaled, SCALAR_7]
  omega

/-- The steps of 1/200 the lot has grown by. -/
theorem lotModifier_eq (delay : Nat) : lotModifier delay = (min delay 200 : Nat) * PER_BLOCK_SCALAR := by
  unfold lotModifier RAMP_BLOCKS
  by_cases h : delay ≤ 200
  · rw [if_pos h, Nat.min_eq_left h]
  · rw [if_neg h, Nat.min_eq_right (by omega)]
    rfl

/-- The steps of 1/200 the bid has left. -/
theorem bidModifier_eq (delay : Nat) : bidModifier delay = (min (400 - delay) 200 : Nat) * PER_BLOCK_SCALAR := by
  unfold bidModifier RAMP_BLOCKS RAMP_END_BLOCKS
  by_cases h : delay ≤ 200
  · rw [if_pos h, Nat.min_eq_right (by omega)]
    rfl
  · rw [if_neg h, Nat.min_eq_left (by omega)]
    by_cases h' : delay < 400
    · rw [if_pos h']
      simp only [SCALAR_7, PER_BLOCK_SCALAR]
      omega
    · rw [if_neg h', Nat.sub_eq_zero_of_le (by omega)]
      rfl

theorem lotModifier_range (delay : Nat) : 0 ≤ lotModifier delay ∧ lotModifier delay ≤ SCALAR_7 := by
  rw [lotModifier_eq]
  simp only [PER_BLOCK_SCALAR, SCALAR_7]
  omega

theorem bidModifier_range (delay : Nat) : 0 ≤ bidModifier delay ∧ bidModifier delay ≤ SCALAR_7 := by
  rw [bidModifier_eq]
  simp only [PER_BLOCK_SCALAR, SCALAR_7]
  omega

theorem lotModifier_mono {delay delay' : Nat} (h : delay ≤ delay') : lotModifier delay ≤ lotModifier delay' := by
  rw [lotModifier_eq, lotModifier_eq]
  simp only [PER_BLOCK_SCALAR]
  omega

theorem bidModifier_anti {delay delay' : Nat} (h : delay ≤ delay') : bidModifier delay' ≤ bidModifier delay := by
  rw [bidModifier_eq, bidModifier_eq]
  simp only [PER_BLOCK_SCALAR]
  omega

/-- What scaling an auction answers. -/
structure Scales (auction : AuctionData) (block percent : Nat) (scaled : ScaledAuction) : Prop where
  bid : ∀ asset, scaled.toFill.bid.getD asset 0 =
    share .ceil (share .ceil (auction.bid.getD asset 0) (percentScaled percent)) (bidModifier (block - auction.block))
  lot : ∀ asset, scaled.toFill.lot.getD asset 0 =
    share .floor (share .floor (auction.lot.getD asset 0) (percentScaled percent)) (lotModifier (block - auction.block))
  bidLeft : ∀ asset, scaled.left.bid.getD asset 0 =
    auction.bid.getD asset 0 - share .ceil (auction.bid.getD asset 0) (percentScaled percent)
  lotLeft : ∀ asset, scaled.left.lot.getD asset 0 =
    auction.lot.getD asset 0 - share .floor (auction.lot.getD asset 0) (percentScaled percent)
  stored : AllPos scaled.toFill.bid ∧ AllPos scaled.toFill.lot ∧ AllPos scaled.left.bid ∧ AllPos scaled.left.lot
  block : ∀ left, scaled.remaining = some left → left.block = auction.block
  none_iff : scaled.remaining = none ↔ scaled.left.isEmpty = true

theorem scaleAuction_scales {auction : AuctionData} {block percent : Nat} (hrange : auction.InRange)
    (hblock : auction.block ≤ block) (h1 : 1 ≤ percent) (h100 : percent ≤ 100) :
    ∃ scaled, scaleAuction auction block percent = .ok scaled ∧ Scales auction block percent scaled := by
  have hp0 := percentScaled_nonneg percent
  have hp := percentScaled_le h100
  have hbids := bidModifier_range (block - auction.block)
  have hlots := lotModifier_range (block - auction.block)
  obtain ⟨bid, hbid, hbidShares⟩ := splitSide_shares .ceil hrange.bid hp0 hp hbids.1 hbids.2
  obtain ⟨lot, hlot, hlotShares⟩ := splitSide_shares .floor hrange.lot hp0 hp hlots.1 hlots.2
  have hnarrow : narrow ((percent : Int) * 100000) = .ok (percentScaled percent) := narrow_of_le hp0 hp (by decide)
  let left : AuctionData := { bid := bid.remaining, lot := lot.remaining, block := auction.block }
  let scaled : ScaledAuction :=
    { toFill := { bid := bid.toFill, lot := lot.toFill, block := auction.block }
      remaining := if left.isEmpty then none else some left }
  have hscaled : scaleAuction auction block percent = .ok scaled := by
    unfold scaleAuction
    rw [if_neg (by omega), if_neg (by omega)]
    refine bind_ok_iff.2 ⟨_, hnarrow, ?_⟩
    exact bind_ok_iff.2 ⟨bid, hbid, bind_ok_iff.2 ⟨lot, hlot, rfl⟩⟩
  -- An empty remainder holds what no remainder does.
  have hleft : scaled.left.bid = bid.remaining ∧ scaled.left.lot = lot.remaining := by
    show ((if left.isEmpty then none else some left).getD {}).bid = left.bid ∧
      ((if left.isEmpty then none else some left).getD {}).lot = left.lot
    by_cases hempty : left.isEmpty = true
    · rw [if_pos hempty]
      simp only [AuctionData.isEmpty, Bool.and_eq_true, Std.ExtTreeMap.isEmpty_iff] at hempty
      simp [hempty]
    · rw [if_neg hempty]
      simp
  obtain ⟨hbidTaken, hbidLeft⟩ := splitSide_pos hbid
  obtain ⟨hlotTaken, hlotLeft⟩ := splitSide_pos hlot
  refine ⟨scaled, hscaled, ?_⟩
  refine {
    bid := fun asset => (hbidShares asset).1
    lot := fun asset => (hlotShares asset).1
    bidLeft := fun asset => ?_
    lotLeft := fun asset => ?_
    stored := ⟨hbidTaken, hlotTaken, ?_, ?_⟩
    block := fun rest hrest => ?_
    none_iff := ?_ }
  · rw [hleft.1]
    exact (hbidShares asset).2
  · rw [hleft.2]
    exact (hlotShares asset).2
  · rw [hleft.1]
    exact hbidLeft
  · rw [hleft.2]
    exact hlotLeft
  · have hsome : (if left.isEmpty then none else some left) = some rest := hrest
    by_cases hempty : left.isEmpty = true
    · simp [hempty] at hsome
    · simp only [hempty] at hsome
      cases hsome
      rfl
  · have hsame : scaled.left.isEmpty = left.isEmpty := by
      simp only [AuctionData.isEmpty, hleft.1, hleft.2]
      rfl
    rw [hsame]
    show (if left.isEmpty then none else some left) = none ↔ _
    by_cases hempty : left.isEmpty = true
    · simp [hempty]
    · simp [hempty]

/-- What a fill exchanges holds positive amounts alone. -/
theorem scaleAuction_pos {auction : AuctionData} {block percent : Nat} {scaled : ScaledAuction}
    (h : scaleAuction auction block percent = .ok scaled) :
    AllPos scaled.toFill.bid ∧ AllPos scaled.toFill.lot := by
  simp only [scaleAuction] at h
  split at h
  · cases h
  split at h
  · cases h
  simp only [bind_ok_iff, pure_ok_iff] at h
  obtain ⟨percentScaled, -, bid, hb, lot, hl, rfl⟩ := h
  exact ⟨(splitSide_pos hb).1, (splitSide_pos hl).1⟩

end BlendLiquidator
