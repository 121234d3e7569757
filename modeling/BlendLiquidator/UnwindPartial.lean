/-
The partial withdrawal needs no back-off: wherever step 3 comes to `partial`
with something to send, the bounds accept the first amount
(`partial_first_accepted`).

What `mayGo` leaves is the least the bounds accept (`Bounds.leaves`), in any
oracle's decimals: a collateral at or above `required` is never under the
margin, as the health test rounds both of its sides down. Nothing of the
projection can fail either. It was made once already, of a position that
holds no less anywhere, and less collateral is valued wherever more was.
-/
import BlendLiquidator.LiquidationFacts
import BlendLiquidator.UnwindMaximal

namespace BlendLiquidator

open Results IntDiv

/-! ## Valuing less collateral -/

theorem RunningFits.total {start : Int} {xs : List Int} (hstart : FitsI128 start) (h : RunningFits start xs) :
    FitsI128 (start + xs.sum) := by
  induction xs generalizing start with
  | nil => simpa using hstart
  | cons x xs ih =>
    rw [List.sum_cons, ← Int.add_assoc]
    exact ih h.1 h.2

/-- Sums that only grow fit where the last one does. -/
theorem runningFits_of_nonneg {start : Int} {xs : List Int} (hstart : 0 ≤ start) (hxs : ∀ x ∈ xs, 0 ≤ x)
    (hmax : start + xs.sum ≤ i128Max) : RunningFits start xs := by
  induction xs generalizing start with
  | nil => trivial
  | cons x xs ih =>
    rw [List.forall_mem_cons] at hxs
    rw [List.sum_cons] at hmax
    have hsum : 0 ≤ xs.sum := List.sum_nonneg hxs.2
    have hmin : i128Min ≤ 0 := by decide
    exact ⟨⟨by omega, by omega⟩, ih (by omega) hxs.2 (by omega)⟩

section Less

variable {reserves : BTreeMap Nat Reserve} {prices : OraclePrices}

/-- What an entry is valued at, as a total function: nothing when it is not. -/
def entryValue (reserves : BTreeMap Nat Reserve) (prices : OraclePrices) (pick : PositionValue → Int) (index : Nat)
    (bTokens : Int) : Int :=
  if bTokens = 0 then 0
  else match collateralValue reserves prices (index, bTokens) with
    | .ok found => pick found
    | .error _ => 0

@[simp] theorem entryValue_zero {pick : PositionValue → Int} {index : Nat} :
    entryValue reserves prices pick index 0 = 0 := rfl

theorem entryValue_ok {pick : PositionValue → Int} {index : Nat} {bTokens : Int} {found : PositionValue} (hne : bTokens ≠ 0)
    (h : collateralValue reserves prices (index, bTokens) = .ok found) :
    entryValue reserves prices pick index bTokens = pick found := by
  simp only [entryValue, if_neg hne, h]

theorem Valued.sum_eq {entries : List (Nat × Int)} {values : List PositionValue} (pick : PositionValue → Int)
    (h : Valued (collateralValue reserves prices) entries values) :
    (values.map pick).sum = (entries.map fun entry => entryValue reserves prices pick entry.1 entry.2).sum := by
  induction entries generalizing values with
  | nil => cases h; rfl
  | cons entry entries ih =>
    rw [List.map_cons, List.sum_cons]
    by_cases hzero : entry.2 = 0
    · rw [hzero, entryValue_zero, Int.zero_add]
      exact ih ((valued_cons_zero hzero).1 h)
    · obtain ⟨found, rest, hfound, hrest, rfl⟩ := (valued_cons hzero).1 h
      rw [List.map_cons, List.sum_cons, ih hrest, entryValue_ok hzero hfound]

theorem Valued.forall {value : Nat × Int → Except MathError PositionValue} {entries : List (Nat × Int)}
    {values : List PositionValue} {Q : PositionValue → Prop} (h : Valued value entries values)
    (hq : ∀ entry ∈ entries, entry.2 ≠ 0 → ∀ found, value entry = .ok found → Q found) : ∀ found ∈ values, Q found := by
  induction entries generalizing values with
  | nil =>
    cases h
    exact fun _ hfound => absurd hfound List.not_mem_nil
  | cons entry entries ih =>
    rw [List.forall_mem_cons] at hq
    by_cases hzero : entry.2 = 0
    · exact ih ((valued_cons_zero hzero).1 h) hq.2
    · obtain ⟨found, rest, hfound, hrest, rfl⟩ := (valued_cons hzero).1 h
      exact List.forall_mem_cons.2 ⟨hq.1 hzero found hfound, ih hrest hq.2⟩

variable (hrates : ∀ (index : Nat) (reserve : Reserve), reserves[index]? = some reserve → 0 ≤ reserve.data.bRate)

include hrates

/-- Fewer b-tokens are worth no more, and are valued wherever more are. -/
theorem collateralValue_mono {index : Nat} {more less : Int} {found : PositionValue} (h0 : 0 ≤ less) (hle : less ≤ more)
    (h : collateralValue reserves prices (index, more) = .ok found) :
    ∃ found', collateralValue reserves prices (index, less) = .ok found' ∧
      (0 ≤ found'.effective ∧ found'.effective ≤ found.effective) ∧ 0 ≤ found'.raw ∧ found'.raw ≤ found.raw := by
  simp only [collateralValue, bind_ok_iff, pure_ok_iff, Reserve.toEffectiveAssetFromBToken, Reserve.toAssetFromBToken] at h ⊢
  obtain ⟨r, hr, price, hprice, worth, hworth, raw, hraw, effective, ⟨worth', hworth', heffective⟩, value, hvalue, rfl⟩ := h
  obtain rfl : worth = worth' := Except.ok.inj (hworth.symm.trans hworth')
  have hrate := hrates index r (reserveAt_ok_iff.1 hr)
  have hpos := (price_pos hprice).le
  obtain ⟨worth', hworth', hworth0, hworthLe⟩ := mulFloor_mono SCALAR_12_pos h0 hrate hle le_rfl hworth
  obtain ⟨effective', heffective', heffective0, heffectiveLe⟩ :=
    mulFloor_mono SCALAR_7_pos hworth0 (show (0 : Int) ≤ r.config.cFactor by omega) hworthLe le_rfl heffective
  obtain ⟨raw', hraw', hraw0, hrawLe⟩ := mulFloor_mono r.scalar_pos hpos hworth0 le_rfl hworthLe hraw
  obtain ⟨value', hvalue', hvalue0, hvalueLe⟩ := mulFloor_mono r.scalar_pos hpos heffective0 le_rfl heffectiveLe hvalue
  exact ⟨_, ⟨r, hr, price, hprice, worth', hworth', raw', hraw', effective', ⟨worth', hworth', heffective'⟩, value', hvalue',
    rfl⟩, ⟨hvalue0, hvalueLe⟩, hraw0, hrawLe⟩

/-- The entries of less collateral are valued where those of more are, and add
up to no more. -/
theorem Valued.less {more less : BTreeMap Nat Int} {values : List PositionValue}
    (hheld : ∀ index, 0 ≤ less.getD index 0 ∧ less.getD index 0 ≤ more.getD index 0)
    (h : Valued (collateralValue reserves prices) more.toList values) :
    ∃ values', Valued (collateralValue reserves prices) less.toList values' ∧
      (∀ found ∈ values', 0 ≤ found.effective ∧ 0 ≤ found.raw) ∧
      (values'.map (·.effective)).sum ≤ (values.map (·.effective)).sum ∧
      (values'.map (·.raw)).sum ≤ (values.map (·.raw)).sum := by
  have hvalue : ∀ index, more.getD index 0 ≠ 0 →
      ∃ found, collateralValue reserves prices (index, more.getD index 0) = .ok found := by
    intro index hne
    cases hget : more[index]? with
    | none => rw [Std.ExtTreeMap.getD_eq_getD_getElem?, hget] at hne; exact absurd rfl hne
    | some b =>
      rw [TreeMaps.getD_of_getElem? hget] at hne ⊢
      exact exists_valued.1 ⟨values, h⟩ (index, b) (Std.ExtTreeMap.mem_toList_iff_getElem?_eq_some.2 hget) hne
  have hentry : ∀ entry ∈ less.toList, entry.2 ≠ 0 →
      ∃ found, collateralValue reserves prices entry = .ok found ∧ 0 ≤ found.effective ∧ 0 ≤ found.raw := by
    rintro ⟨index, b⟩ hmem hne
    have hget := TreeMaps.getD_of_getElem? (d := 0) (Std.ExtTreeMap.mem_toList_iff_getElem?_eq_some.1 hmem)
    have hle := hheld index
    rw [hget] at hle
    obtain ⟨found, hfound⟩ := hvalue index (by simp only at hne; omega)
    obtain ⟨found', hfound', heffective, hraw⟩ := collateralValue_mono hrates hle.1 hle.2 hfound
    exact ⟨found', hfound', heffective.1, hraw.1⟩
  obtain ⟨values', h'⟩ := exists_valued.2 fun entry hmem hne => (hentry entry hmem hne).imp fun _ hfound => hfound.1
  have hsum : ∀ {pick : PositionValue → Int}, pick = (·.effective) ∨ pick = (·.raw) →
      (values'.map pick).sum ≤ (values.map pick).sum := by
    intro pick hpick
    rw [h'.sum_eq pick, h.sum_eq pick]
    refine TreeMaps.sum_toList_le _ _ (fun _ => entryValue_zero) (fun _ => entryValue_zero) fun index => ?_
    have hle := hheld index
    by_cases hmore : more.getD index 0 = 0
    · rw [show less.getD index 0 = 0 by omega, hmore]
    obtain ⟨found, hfound⟩ := hvalue index hmore
    obtain ⟨found', hfound', heffective, hraw⟩ := collateralValue_mono hrates hle.1 hle.2 hfound
    rw [entryValue_ok hmore hfound]
    by_cases hless : less.getD index 0 = 0
    · rw [hless, entryValue_zero]
      rcases hpick with rfl | rfl <;> dsimp only <;> omega
    · rw [entryValue_ok hless hfound']
      rcases hpick with rfl | rfl <;> dsimp only <;> omega
  refine ⟨values', h', h'.forall fun entry hmem hne found hfound => ?_, hsum (.inl rfl), hsum (.inr rfl)⟩
  obtain ⟨found', hfound', hnonneg⟩ := hentry entry hmem hne
  cases hfound.symm.trans hfound'
  exact hnonneg

/-- **Less collateral against the same debts** is valued wherever more was, at
no more. -/
theorem calculatePositionData_less {p p' : Positions} {high : PositionData}
    (hheld : ∀ index, 0 ≤ p'.collateral.getD index 0 ∧ p'.collateral.getD index 0 ≤ p.collateral.getD index 0)
    (howed : p'.liabilities = p.liabilities) (h : calculatePositionData reserves prices p = .ok high) :
    ∃ low, calculatePositionData reserves prices p' = .ok low ∧ WorthLess high low := by
  obtain ⟨held, owed, hvalued, howedValued, hfits, howedFits, rfl⟩ := calculatePositionData_ok_iff.1 h
  obtain ⟨held', hvalued', hnonneg, hbaseLe, hrawLe⟩ := hvalued.less hrates hheld
  have hindex : ∀ (entry : Nat × Int) (found : PositionValue), collateralValue reserves prices entry = .ok found →
      found.index = entry.1 := fun _ _ => collateralValue_index
  have hzero : FitsI128 0 := ⟨by decide, by decide⟩
  obtain ⟨hbase, hraw⟩ := (sumsFit_iff (hvalued.ascending hindex)).1 hfits
  have hbaseMax := (hbase.total hzero).2
  have hrawMax := (hraw.total hzero).2
  have hbases : ∀ x ∈ held'.map (·.effective), 0 ≤ x := List.forall_mem_map.2 fun found hfound => (hnonneg found hfound).1
  have hraws : ∀ x ∈ held'.map (·.raw), 0 ≤ x := List.forall_mem_map.2 fun found hfound => (hnonneg found hfound).2
  have hfits' : SumsFit held' := (sumsFit_iff (hvalued'.ascending hindex)).2
    ⟨runningFits_of_nonneg le_rfl hbases (by omega), runningFits_of_nonneg le_rfl hraws (by omega)⟩
  refine ⟨_, calculatePositionData_ok_iff.2 ⟨held', owed, hvalued', howed ▸ howedValued, hfits', howedFits, rfl⟩, ?_⟩
  exact ⟨⟨List.sum_nonneg hbases, hbaseLe⟩, ⟨List.sum_nonneg hraws, hrawLe⟩, rfl, rfl, rfl⟩

end Less

/-! ## What the bounds accept -/

/-- What covers the margin is not under it, in any decimals: both sides of the
health test round down. -/
theorem floor_margin_le {liability collateral margin scalar : Int} (hpos : 0 < liability) (hscalar : 0 ≤ scalar)
    (h : ceilDiv (liability * margin) SCALAR_7 ≤ collateral) :
    scalar * margin / SCALAR_7 ≤ collateral * scalar / liability := by
  have hcovers : liability * margin ≤ collateral * SCALAR_7 := (ceilDiv_le_iff SCALAR_7_pos).1 h
  have hfloor : scalar * margin / SCALAR_7 * SCALAR_7 ≤ scalar * margin := ediv_mul_le' SCALAR_7_pos
  rw [Int.le_ediv_iff_mul_le hpos]
  refine Int.le_of_mul_le_mul_right ?_ SCALAR_7_pos
  calc scalar * margin / SCALAR_7 * liability * SCALAR_7
      = scalar * margin / SCALAR_7 * SCALAR_7 * liability := Int.mul_right_comm _ _ _
    _ ≤ scalar * margin * liability := Int.mul_le_mul_of_nonneg_right hfloor hpos.le
    _ = scalar * (liability * margin) := by rw [Int.mul_assoc, Int.mul_comm margin]
    _ ≤ scalar * (collateral * SCALAR_7) := Int.mul_le_mul_of_nonneg_left hcovers hscalar
    _ = collateral * scalar * SCALAR_7 := by rw [← Int.mul_assoc, Int.mul_comm scalar]

/-- The bounds accept a valuation of no more than one they could judge, where
it covers what they ask for. -/
theorem Bounds.accepts_of_required {bounds : Bounds} {high low : PositionData} {under : Bool} (hless : WorthLess high low)
    (hdebt : 0 ≤ high.liabilityBase) (hscalar : 0 ≤ high.scalar) (hjudged : high.isHfUnder bounds.margin = .ok under)
    (h : bounds.required high.liabilityBase ≤ low.collateralBase) : bounds.accepts low = .ok true := by
  rw [required, Int.max_le] at h
  suffices hunder : low.isHfUnder bounds.margin = .ok false by
    simp only [accepts, bind_ok_iff, pure_ok_iff]
    exact ⟨false, hunder, by simp [h.2]⟩
  by_cases hzero : high.liabilityBase = 0
  · simp only [PositionData.isHfUnder, PositionData.healthFactor, hless.liabilityBase, hzero, ↓reduceIte]
    rfl
  have hpos : 0 < high.liabilityBase := by omega
  simp only [PositionData.isHfUnder, PositionData.healthFactor, hzero, ↓reduceIte, bind_ok_iff, map_ok_iff] at hjudged
  obtain ⟨_, ⟨health, hhealth, rfl⟩, hjudged⟩ := hjudged
  simp only [bind_ok_iff] at hjudged
  obtain ⟨floor, hfloor, -⟩ := hjudged
  obtain ⟨health', hhealth', -⟩ := mulFloor_mono hpos hless.base.1 hscalar hless.base.2 le_rfl hhealth
  have hvalue := narrow_ok ((mulFloor_eq hpos).symm.trans hhealth')
  have hbound := narrow_ok ((mulFloor_eq SCALAR_7_pos).symm.trans hfloor)
  have hlow : low.healthFactor = .ok (some health') := by
    rw [PositionData.healthFactor, hless.liabilityBase, if_neg hzero, hless.scalar]
    exact map_ok_iff.2 ⟨health', hhealth', rfl⟩
  simp only [PositionData.isHfUnder, hlow, bind_ok_iff, pure_ok_iff, Except.ok.injEq, exists_eq_left', hless.scalar]
  refine ⟨floor, hfloor, decide_eq_false (Int.not_lt.2 ?_)⟩
  rw [hvalue, hbound]
  exact floor_margin_le hpos hscalar h.1

/-! ## The formula -/

/-- What so many b-tokens add to `collateral_base`. -/
def contribution (inputs : UnwindInputs) (reserve : Reserve) (bTokens : Int) : Except MathError Int := do
  let price ← inputs.prices.price reserve.asset
  mulFloor price (← reserve.toEffectiveAssetFromBToken bTokens) reserve.scalar

/-- `stays_base` and `stays`: the base the bounds ask a candidate to keep, and
the b-tokens that keep it. -/
def staysOf (bounds : Bounds) (inputs : UnwindInputs) (reserve : Reserve) (data : PositionData) (held : Int) :
    Except MathError (Int × Int) := do
  let cFactor : Int := reserve.config.cFactor
  let price ← inputs.prices.price reserve.asset
  let required := max (← mulCeil data.liabilityBase bounds.margin SCALAR_7) bounds.minCollateral
  let mayGo ← narrow (data.collateralBase - required)
  let carries ← mulFloor price (← reserve.toEffectiveAssetFromBToken held) reserve.scalar
  let staysBase := max (← narrow (carries - mayGo)) 0
  let stays ← reserve.toBTokenUp (← divCeil (← mulCeil staysBase reserve.scalar price) cFactor SCALAR_7)
  return (staysBase, stays)

/-- What may go is the position less what stays, and the primary's floor. -/
theorem mayGo_eq (terms : UnwindTerms) (bounds : Bounds) (inputs : UnwindInputs) (reserve : Reserve) (data : PositionData)
    (held : Int) (isPrimary : Bool) :
    mayGo terms bounds inputs reserve data held isPrimary = do
      let (_, stays) ← staysOf bounds inputs reserve data held
      let goes ← narrow (held - stays)
      if isPrimary then
        let floor ← reserve.toBTokenUp (max terms.minPrimaryCollateral 0)
        return min goes (← narrow (held - floor))
      return goes := by
  simp only [mayGo, staysOf, bind_assoc, pure_bind]

section Formula

variable {bounds : Bounds} {inputs : UnwindInputs} {reserve : Reserve} {data : PositionData}
  {price held staysBase stays : Int} (hrate : 0 < reserve.data.bRate)
  (hprice : inputs.prices.price reserve.asset = .ok price)

include hprice

theorem contribution_eq {bTokens base : Int} (h : contribution inputs reserve bTokens = .ok base) :
    base = reserve.heldBase price bTokens := by
  simp only [contribution, hprice, bind_ok_iff, Except.ok.injEq, exists_eq_left', Reserve.toEffectiveAssetFromBToken,
    Reserve.toAssetFromBToken, mulFloor_eq SCALAR_12_pos, mulFloor_eq SCALAR_7_pos, mulFloor_eq reserve.scalar_pos] at h
  obtain ⟨effective, ⟨worth, hworth, heffective⟩, hbase⟩ := h
  rw [narrow_ok hbase, narrow_ok heffective, narrow_ok hworth]
  rfl

include hrate

theorem contribution_of_le {less more base : Int} (h0 : 0 ≤ less) (hle : less ≤ more)
    (h : contribution inputs reserve more = .ok base) :
    contribution inputs reserve less = .ok (reserve.heldBase price less) := by
  suffices hok : ∃ base', contribution inputs reserve less = .ok base' by
    obtain ⟨base', hbase'⟩ := hok
    rw [hbase', contribution_eq hprice hbase']
  simp only [contribution, hprice, bind_ok_iff, Except.ok.injEq, exists_eq_left', Reserve.toEffectiveAssetFromBToken,
    Reserve.toAssetFromBToken] at h ⊢
  obtain ⟨effective, ⟨worth, hworth, heffective⟩, hbase⟩ := h
  obtain ⟨worth', hworth', hworth0, hworthLe⟩ := mulFloor_mono SCALAR_12_pos h0 hrate.le hle le_rfl hworth
  obtain ⟨effective', heffective', heffective0, heffectiveLe⟩ :=
    mulFloor_mono SCALAR_7_pos hworth0 (show (0 : Int) ≤ reserve.config.cFactor by omega) hworthLe le_rfl heffective
  obtain ⟨base', hbase', -⟩ :=
    mulFloor_mono reserve.scalar_pos (price_pos hprice).le heffective0 le_rfl heffectiveLe hbase
  exact ⟨base', effective', ⟨worth', hworth', heffective'⟩, hbase'⟩

theorem staysOf_ok (hfactor : reserve.config.cFactor ≠ 0)
    (h : staysOf bounds inputs reserve data held = .ok (staysBase, stays)) :
    0 ≤ staysBase ∧ stays = reserve.staysFor price staysBase ∧ ∃ carries, contribution inputs reserve held = .ok carries := by
  have hfactor : (0 : Int) < reserve.config.cFactor := by omega
  simp only [staysOf, hprice, bind_ok_iff, pure_ok_iff, Except.ok.injEq, exists_eq_left', Prod.mk.injEq,
    mulCeil_eq (price_pos hprice), divCeil_eq hfactor] at h
  obtain ⟨_, -, _, -, effective, heffective, carries, hcarries, rest, -, value, hvalue, asset, hasset, tokens, htokens, rfl,
    rfl⟩ := h
  refine ⟨le_max_right _ _, ?_, carries, ?_⟩
  · rw [toBTokenUp_ok hrate htokens, narrow_ok hasset, narrow_ok hvalue]
    rfl
  · simp only [contribution, hprice, bind_ok_iff, Except.ok.injEq, exists_eq_left']
    exact ⟨effective, heffective, hcarries⟩

omit hprice in
theorem Reserve.staysFor_nonneg {base : Int} (hprice : 0 < price) (hfactor : reserve.config.cFactor ≠ 0) (h : 0 ≤ base) :
    0 ≤ reserve.staysFor price base := by
  have hfactor : (0 : Int) < reserve.config.cFactor := by omega
  have hvalue : 0 ≤ ceilDiv (base * reserve.scalar) price :=
    ceilDiv_nonneg hprice (Int.mul_nonneg h reserve.scalar_pos.le)
  have hasset : 0 ≤ ceilDiv (ceilDiv (base * reserve.scalar) price * SCALAR_7) reserve.config.cFactor :=
    ceilDiv_nonneg hfactor (Int.mul_nonneg hvalue SCALAR_7_pos.le)
  exact ceilDiv_nonneg hrate (Int.mul_nonneg hasset SCALAR_12_pos.le)

/-- **What stays is the least** worth the base that stays, as the valuation
counts it. -/
theorem stays_isLeast (hfactor : reserve.config.cFactor ≠ 0)
    (h : staysOf bounds inputs reserve data held = .ok (staysBase, stays)) (hle : stays ≤ held) :
    IsLeast {bTokens | ∃ base, contribution inputs reserve bTokens = .ok base ∧ staysBase ≤ base} stays := by
  obtain ⟨hbase0, hstays, carries, hcarries⟩ := staysOf_ok hrate hprice hfactor h
  have hiff : ∀ {bTokens}, stays ≤ bTokens ↔ staysBase ≤ reserve.heldBase price bTokens := by
    intro bTokens
    rw [hstays]
    exact Reserve.staysFor_le_iff hrate (price_pos hprice) hfactor
  have hstays0 : 0 ≤ stays := hstays ▸ Reserve.staysFor_nonneg hrate (price_pos hprice) hfactor hbase0
  refine ⟨⟨_, contribution_of_le hrate hprice hstays0 hle hcarries, hiff.1 le_rfl⟩, ?_⟩
  rintro bTokens ⟨base, hbase, hcovers⟩
  rw [contribution_eq hprice hbase] at hcovers
  exact hiff.2 hcovers

end Formula

/-! ## The first withdrawal -/

section First

variable {terms : UnwindTerms} {bounds : Bounds} {inputs : UnwindInputs} {index : Nat} {reserve : Reserve} {w : Withdrawing}
  {data : PositionData} {under : Bool} (hrates : inputs.RatesPositive) (hn : w.positions.Nonneg)
  (hmax : w.positions.collateral.getD index 0 ≤ i128Max) (hr : inputs.reserves[index]? = some reserve)
  (hdata : projectUnwind inputs w.positions = .ok data) (hjudged : data.isHfUnder bounds.margin = .ok under)

include hrates hn hmax hr hdata hjudged

/-- A withdrawal the position covers is taken where the bounds are content with
what it leaves: the projection has no way to fail. -/
theorem takeWithdrawal_accepted {amount : Int} (hpos : 0 < amount)
    (hcovered : reserve.burnt amount ≤ w.positions.collateral.getD index 0)
    (hcontent : bounds.asks inputs w.positions ≤
      collateralWith inputs w.positions index (reserve.leftBy (w.positions.collateral.getD index 0) amount)) :
    ∃ taken, takeWithdrawal bounds inputs w index amount = .ok (some taken) ∧
      taken.actions = w.actions ++ [.withdraw reserve.asset amount] ∧
      afterWithdrawal inputs w.positions index amount = .ok taken.positions ∧ Accepted bounds inputs taken.positions := by
  obtain ⟨hrate, -⟩ := hrates index reserve hr
  have hreserve := reserveAt_ok_iff.2 hr
  have hburnt := Reserve.burnt_pos hrate hpos
  have htokens : reserve.toBTokenUp amount = .ok (reserve.burnt amount) := by
    rw [Reserve.toBTokenUp, divCeil_eq hrate]
    exact narrow_of_le hburnt.le hcovered hmax
  obtain ⟨next, hnext⟩ : ∃ next, afterWithdrawal inputs w.positions index amount = .ok next := by
    simp only [afterWithdrawal, hreserve, htokens, bind_ok_iff, pure_ok_iff, Except.ok.injEq, exists_eq_left',
      Int.min_eq_left hcovered]
    exact ⟨_, _, narrow_of_le (by omega) (show _ ≤ w.positions.collateral.getD index 0 by omega) hmax, rfl⟩
  obtain ⟨hagree, hn', hleft⟩ := afterWithdrawal_agree hrate hn hr hnext
  have hheld : ∀ i, 0 ≤ next.collateral.getD i 0 ∧ next.collateral.getD i 0 ≤ w.positions.collateral.getD i 0 := by
    intro i
    refine ⟨getD_nonneg hn'.held i, ?_⟩
    by_cases heq : index = i
    · rw [← heq, hleft, Reserve.leftBy]
      omega
    · rw [hagree.2 i heq]
  obtain ⟨low, hlow, hless⟩ :=
    calculatePositionData_less (fun i r hi => (hrates i r hi).1.le) hheld hagree.1 hdata
  obtain ⟨-, -, hl, hl0, hs⟩ := projectUnwind_sums hrates hn hdata
  obtain ⟨hc, -⟩ := projectUnwind_sums hrates hn' hlow
  have hscalar : 0 ≤ data.scalar := by
    rw [hs, inputs.prices.scalar_eq]
    exact Int.pow_nonneg (by decide)
  have haccepts : bounds.accepts low = .ok true := by
    refine Bounds.accepts_of_required hless hl0 hscalar hjudged ?_
    rw [hc, hagree.collateralSum_eq, hleft, hl]
    exact hcontent
  refine ⟨{ positions := next, actions := w.actions ++ [.withdraw reserve.asset amount] }, ?_, rfl, hnext, low, hlow, haccepts⟩
  simp only [takeWithdrawal, if_neg (Int.not_le.2 hpos), bind_ok_iff, hnext, Except.ok.injEq, exists_eq_left']
  exact ⟨low, hlow, true, haccepts, by simp only [hreserve]; rfl⟩

end First

/-! ## Where `partial` is called -/

/-- The states of step 3's walk, each with the candidates still to visit. -/
inductive Walks (terms : UnwindTerms) (bounds : Bounds) (inputs : UnwindInputs) (start : Withdrawing) (order : List Nat) :
    Withdrawing → List Nat → Prop
  | start : Walks terms bounds inputs start order start order
  | step {w w' : Withdrawing} {data : PositionData} {index : Nat} {rest : List Nat}
      (h : Walks terms bounds inputs start order w (index :: rest)) (hdata : projectUnwind inputs w.positions = .ok data)
      (hunder : data.isHfUnder bounds.margin = .ok false)
      (hstep : withdrawCandidate terms bounds inputs w data index = .ok w') :
      Walks terms bounds inputs start order w' rest

/-- Step 3 of a plan visits `index` with its working state and projection.
`partial` is called for no other. -/
inductive Visits (terms : UnwindTerms) (inputs : UnwindInputs) (bounds : Bounds) (w : Withdrawing) (data : PositionData)
    (index : Nat) : Prop
  | visit {repaid : Repaying} {assets : List String} {order rest : List Nat} (hrepay : repay inputs = .ok repaid)
      (hassets : liabilityAssets inputs repaid.positions = .ok assets)
      (howes : repaid.positions.liabilities.isEmpty = false) (hbounds : Bounds.of terms = .ok bounds)
      (horder : candidates terms inputs repaid.positions = .ok order)
      (hwalk : Walks terms bounds inputs ⟨repaid.positions, repaid.actions⟩ order w (index :: rest))
      (hdata : projectUnwind inputs w.positions = .ok data) (hunder : data.isHfUnder bounds.margin = .ok false)

/-- `partial` comes to its loop with something to send. -/
structure Sends (terms : UnwindTerms) (bounds : Bounds) (inputs : UnwindInputs) (w : Withdrawing) (data : PositionData)
    (index primary : Nat) (reserve : Reserve) (goes amount : Int) : Prop where
  reserve_ok : reserveAt inputs.reserves index = .ok reserve
  factor_ne : reserve.config.cFactor ≠ 0
  held_pos : 0 < w.positions.collateral.getD index 0
  primary_ok : primaryIndex terms inputs = .ok primary
  goes_ok : mayGo terms bounds inputs reserve data (w.positions.collateral.getD index 0) (decide (index = primary)) = .ok goes
  goes_pos : 0 < goes
  amount_ok : reserve.toAssetFromBToken goes = .ok amount
  large : tooSmall terms (decide (index = primary)) amount = .ok false

section Walk

variable {terms : UnwindTerms} {bounds : Bounds} {inputs : UnwindInputs} {start w w' : Withdrawing} {order rest : List Nat}
  {data : PositionData} {index primary : Nat}

/-- The walk goes on from each of its states. -/
theorem Walks.walkCandidates_eq (h : Walks terms bounds inputs start order w rest) :
    walkCandidates terms bounds inputs order start = walkCandidates terms bounds inputs rest w := by
  induction h with
  | start => rfl
  | step _ hdata hunder hstep ih =>
    rw [ih]
    simp only [walkCandidates, hdata, hunder, hstep, bind, Except.bind]
    rfl

/-- Positions a party can have, their collateral in `i128`s. -/
structure Positions.Typed (p : Positions) : Prop where
  nonneg : p.Nonneg
  fits : ∀ index, p.collateral.getD index 0 ≤ i128Max

theorem setBalance_owed {map : BTreeMap Nat Int} {left : Int} (h : ∀ i, 0 ≤ map.getD i 0) (i : Nat) :
    0 ≤ (setBalance map index left).getD i 0 := by
  by_cases hleft : 0 ≤ left
  · rw [setBalance_getD hleft]
    split
    · exact hleft
    · exact h i
  · rw [setBalance, if_neg (by omega), TreeMaps.getD_erase]
    split
    · exact le_rfl
    · exact h i

theorem repayLiability_typed {r r' : Repaying} (h : repayLiability inputs r index = .ok r') (hr : r.positions.Typed) :
    r'.positions.Typed := by
  obtain ⟨reserve, -, ⟨-, rfl⟩ | ⟨-, -, rfl⟩ | ⟨-, -, _, _, _, _, _, _, -, -, -, -, -, -, rfl⟩⟩ := repayLiability_cases h
  · refine ⟨⟨hr.nonneg.held, fun i => ?_⟩, hr.fits⟩
    rw [TreeMaps.getD_erase]
    split
    · exact le_rfl
    · exact hr.nonneg.owed i
  · exact hr
  · exact ⟨⟨hr.nonneg.held, setBalance_owed hr.nonneg.owed⟩, hr.fits⟩

theorem repay_typed {repaid : Repaying} (h : repay inputs = .ok repaid) (hinputs : inputs.positions.Typed) :
    repaid.positions.Typed :=
  foldlM_inv (fun _ r => r.positions.Typed) (fun _ _ _ _ hr hstep => repayLiability_typed hstep hr) hinputs h

theorem Taken.typed (hrates : inputs.RatesPositive) (h : Taken terms bounds inputs primary index w w')
    (hw : w.positions.Typed) : w'.positions.Typed := by
  obtain ⟨hagree, hn', hle⟩ := h.agree hrates hw.nonneg
  refine ⟨hn', fun i => ?_⟩
  by_cases heq : index = i
  · rw [← heq]
    exact hle.trans (hw.fits index)
  · rw [hagree.2 i heq]
    exact hw.fits i

theorem Walks.typed (hrates : inputs.RatesPositive) (h : Walks terms bounds inputs start order w rest)
    (hstart : start.positions.Typed) : w.positions.Typed := by
  induction h with
  | start => exact hstart
  | step _ _ _ hstep ih =>
    have hprimary := hstep
    simp only [withdrawCandidate, bind_ok_iff] at hprimary
    obtain ⟨primary, hp, -⟩ := hprimary
    rcases withdrawCandidate_cases hrates hp hstep with rfl | htaken
    · exact ih
    · exact htaken.typed hrates ih

end Walk

section Sends

variable {terms : UnwindTerms} {bounds : Bounds} {inputs : UnwindInputs} {w taken : Withdrawing} {data : PositionData}
  {index primary : Nat} {reserve : Reserve} {goes amount : Int}

theorem Sends.amount_pos (h : Sends terms bounds inputs w data index primary reserve goes amount) : 0 < amount := by
  have hlarge := h.large
  simp only [tooSmall] at hlarge
  split at hlarge
  · cases hlarge
  · omega

theorem Sends.burnt_le (hrates : inputs.RatesPositive)
    (h : Sends terms bounds inputs w data index primary reserve goes amount) :
    reserve.burnt amount ≤ goes := by
  have hamount := h.amount_ok
  rw [Reserve.toAssetFromBToken, mulFloor_eq SCALAR_12_pos] at hamount
  exact (Reserve.burnt_le_iff (hrates index reserve (reserveAt_ok_iff.1 h.reserve_ok)).1).2 (narrow_ok hamount).le

/-- The position covers what stays on top of what goes. -/
theorem Sends.stays_le (h : Sends terms bounds inputs w data index primary reserve goes amount) :
    ∃ staysBase stays, staysOf bounds inputs reserve data (w.positions.collateral.getD index 0) = .ok (staysBase, stays) ∧
      goes ≤ w.positions.collateral.getD index 0 - stays := by
  have hgoes := h.goes_ok
  rw [mayGo_eq, bind_ok_iff] at hgoes
  obtain ⟨⟨staysBase, stays⟩, hstays, hgoes⟩ := hgoes
  refine ⟨staysBase, stays, hstays, ?_⟩
  rw [bind_ok_iff] at hgoes
  obtain ⟨rest, hrest, hgoes⟩ := hgoes
  rw [← narrow_ok hrest]
  split at hgoes
  · simp only [bind_ok_iff, pure_ok_iff] at hgoes
    obtain ⟨_, -, _, -, rfl⟩ := hgoes
    exact min_le_left _ _
  · exact (pure_ok_iff.1 hgoes).ge

/-- Once a withdrawal is taken the rounds that are left do not matter. -/
theorem Sends.backOff_eq (h : Sends terms bounds inputs w data index primary reserve goes amount)
    (htaken : takeWithdrawal bounds inputs w index amount = .ok (some taken)) (rounds : Nat) :
    backOff terms bounds inputs w index (decide (index = primary)) (rounds + 1) amount = .ok taken := by
  simp only [backOff, h.large, htaken, bind, Except.bind, Bool.false_eq_true, if_false]
  rfl

theorem Sends.withdrawPartial_eq (h : Sends terms bounds inputs w data index primary reserve goes amount)
    (htaken : takeWithdrawal bounds inputs w index amount = .ok (some taken)) :
    withdrawPartial terms bounds inputs w data index = .ok taken := by
  have hback := h.backOff_eq htaken BACKOFF_ROUNDS
  simp only [withdrawPartial, h.reserve_ok, h.primary_ok, h.goes_ok, h.amount_ok, if_neg h.factor_ne,
    if_neg (Int.not_le.2 h.held_pos), if_neg (Int.not_le.2 h.goes_pos), bind, Except.bind]
  exact hback

end Sends

/-- **The first amount is accepted**: the withdrawal that is sent is of it and
leaves positions the bounds accept, the back-off never runs, and what stays is the
least that is worth what has to; step 3 comes to this candidate in this state. -/
theorem partial_first_accepted {terms : UnwindTerms} {inputs : UnwindInputs} {bounds : Bounds} {w : Withdrawing}
    {data : PositionData} {index primary : Nat} {reserve : Reserve} {goes amount : Int} (hrates : inputs.RatesPositive)
    (hinputs : inputs.positions.Typed) (hvisit : Visits terms inputs bounds w data index)
    (hsends : Sends terms bounds inputs w data index primary reserve goes amount) :
    (∃ taken, takeWithdrawal bounds inputs w index amount = .ok (some taken) ∧
      taken.actions = w.actions ++ [.withdraw reserve.asset amount] ∧
      afterWithdrawal inputs w.positions index amount = .ok taken.positions ∧ Accepted bounds inputs taken.positions ∧
      (∀ rounds, backOff terms bounds inputs w index (decide (index = primary)) (rounds + 1) amount = .ok taken) ∧
      withdrawPartial terms bounds inputs w data index = .ok taken) ∧
    (∃ staysBase stays, staysOf bounds inputs reserve data (w.positions.collateral.getD index 0) = .ok (staysBase, stays) ∧
      IsLeast {bTokens | ∃ base, contribution inputs reserve bTokens = .ok base ∧ staysBase ≤ base} stays) ∧
    ∃ repaid order rest, repay inputs = .ok repaid ∧ candidates terms inputs repaid.positions = .ok order ∧
      walkCandidates terms bounds inputs order ⟨repaid.positions, repaid.actions⟩ =
        walkCandidates terms bounds inputs (index :: rest) w := by
  obtain ⟨hrepay, -, -, -, horder, hwalk, hdata, hunder⟩ := hvisit
  have hw := hwalk.typed hrates (repay_typed hrepay hinputs)
  have hr := reserveAt_ok_iff.1 hsends.reserve_ok
  obtain ⟨hrate, -⟩ := hrates index reserve hr
  obtain ⟨-, -, -, hpriced, -⟩ := calculatePositionData_sums hdata
  obtain ⟨r, price, hr', hprice⟩ := hpriced index hsends.held_pos.ne'
  obtain rfl : r = reserve := Option.some.inj (hr'.symm.trans hr)
  obtain ⟨staysBase, stays, hstays, hgoes⟩ := hsends.stays_le
  have hgoes0 := hsends.goes_pos
  have hleast := stays_isLeast hrate hprice hsends.factor_ne hstays (by omega)
  -- what `mayGo` leaves is what the bounds ask for, and the withdrawal burns no more than may go
  have hleaves : goes ≤ w.positions.collateral.getD index 0 -
      bounds.leaves r price data (w.positions.collateral.getD index 0) := by
    rw [mayGo_ok hrate hsends.factor_ne hprice hsends.goes_ok]
    split
    · exact min_le_left _ _
    · exact le_rfl
  have hleaves0 : 0 ≤ bounds.leaves r price data (w.positions.collateral.getD index 0) :=
    Reserve.staysFor_nonneg hrate (price_pos hprice) hsends.factor_ne (le_max_right _ _)
  have hburnt := hsends.burnt_le hrates
  have hcontent : bounds.asks inputs w.positions ≤ collateralWith inputs w.positions index
      (r.leftBy (w.positions.collateral.getD index 0) amount) := by
    refine (leaves_le_iff hrates hw.nonneg hr hdata hprice hsends.factor_ne (r.leftBy_nonneg _ _)).1 ?_
    rw [Reserve.leftBy]
    omega
  obtain ⟨taken, htaken, hsent, hafter, haccepted⟩ := takeWithdrawal_accepted hrates hw.nonneg (hw.fits index) hr hdata
    hunder hsends.amount_pos (by omega) hcontent
  exact ⟨⟨taken, htaken, hsent, hafter, haccepted, hsends.backOff_eq htaken, hsends.withdrawPartial_eq htaken⟩,
    ⟨staysBase, stays, hstays, hleast⟩, _, _, _, hrepay, horder, hwalk.walkCandidates_eq⟩

theorem crumbInputs_typed : crumbInputs.positions.Typed where
  nonneg := ⟨crumbInputs_wellFormed.collateral_nonneg, getD_nonneg crumbInputs_wellFormed.liabilities_nonneg⟩
  fits := fun index => by
    simp only [crumbInputs, TreeMaps.getD_insert]
    split
    · decide
    · split
      · decide
      · rw [Std.ExtTreeMap.getD_empty]
        decide

/-- A position over a debt the wallet cannot repay: part of its XLM goes, at
the first amount. -/
theorem partial_first_accepted_sample :
    ∃ bounds w data reserve taken, Visits crumbTerms crumbInputs bounds w data 1 ∧
      Sends crumbTerms bounds crumbInputs w data 1 0 reserve 73498145358 77173052625 ∧
      takeWithdrawal bounds crumbInputs w 1 77173052625 = .ok (some taken) ∧
      taken.actions = w.actions ++ [.withdraw reserve.asset 77173052625] ∧ Accepted bounds crumbInputs taken.positions := by
  have hrun : (do
      let repaid ← repay crumbInputs
      let assets ← liabilityAssets crumbInputs repaid.positions
      let bounds ← Bounds.of crumbTerms
      let order ← candidates crumbTerms crumbInputs repaid.positions
      let data ← projectUnwind crumbInputs repaid.positions
      let under ← data.isHfUnder bounds.margin
      let reserve ← reserveAt crumbInputs.reserves 1
      let primary ← primaryIndex crumbTerms crumbInputs
      let goes ← mayGo crumbTerms bounds crumbInputs reserve data (repaid.positions.collateral.getD 1 0) false
      let amount ← reserve.toAssetFromBToken goes
      let small ← tooSmall crumbTerms false amount
      pure (order, [repaid.positions.liabilities.isEmpty, under, small], [reserve.config.cFactor, primary],
        [repaid.positions.collateral.getD 1 0, goes, amount])) =
      .ok ([1, 0], [false, false, false], [7500000, 0], [80000000000, 73498145358, 77173052625]) := by decide +kernel
  simp only [bind_ok_iff, pure_ok_iff, Prod.mk.injEq, List.cons.injEq, and_true] at hrun
  obtain ⟨repaid, hrepay, assets, hassets, bounds, hbounds, order, horder, data, hdata, under, hunder, reserve, hreserve,
    primary, hprimary, goes, hgoes, amount, hamount, small, hsmall, rfl, ⟨howes, rfl, rfl⟩, ⟨hfactor, rfl⟩, hheld, rfl, rfl⟩ :=
    hrun
  have hvisit : Visits crumbTerms crumbInputs bounds ⟨repaid.positions, repaid.actions⟩ data 1 :=
    .visit hrepay hassets howes hbounds horder .start hdata hunder
  have hsends : Sends crumbTerms bounds crumbInputs ⟨repaid.positions, repaid.actions⟩ data 1 0 reserve 73498145358
      77173052625 :=
    ⟨hreserve, by rw [hfactor]; decide, by dsimp only; rw [hheld]; decide, hprimary, hgoes, by decide, hamount, hsmall⟩
  obtain ⟨⟨taken, htaken, hsent, -, haccepted, -, -⟩, -⟩ :=
    partial_first_accepted crumbInputs_wellFormed.rates_pos crumbInputs_typed hvisit hsends
  exact ⟨bounds, _, data, reserve, taken, hvisit, hsends, htaken, hsent, haccepted⟩

end BlendLiquidator
