/-
What a position is worth over exact integers. Where `calculate_position_data`
answers, its two bases are plain sums over the entries
(`calculatePositionData_sums`), a collateral's a chain of three floors
(`Reserve.heldBase`) and a liability's `worthOf`; where it does not answer
and every entry can be looked up, it overflowed.

The default path touches the supply side of a reserve alone
(`projectDefault_defaulted`), so a liability is worth the same before and after.
-/
import BlendLiquidator.PositionFacts
import BlendLiquidator.Setoff

namespace BlendLiquidator

open Results IntDiv

/-! ## Collateral -/

/-- What a collateral position is worth in underlying, rounded down. -/
def Reserve.worth (r : Reserve) (bTokens : Int) : Int := bTokens * r.data.bRate / SCALAR_12

/-- What a collateral position adds to the base at a price: its worth, its
effective part and its value, each rounded down. -/
def Reserve.heldBase (r : Reserve) (price bTokens : Int) : Int :=
  price * (r.worth bTokens * r.config.cFactor / SCALAR_7) / r.scalar

@[simp] theorem Reserve.heldBase_zero (r : Reserve) (price : Int) : r.heldBase price 0 = 0 := by
  simp [heldBase, worth]

/-- The same by index, nothing for a reserve or a price that is missing. -/
def heldBaseAt (reserves : BTreeMap Nat Reserve) (prices : OraclePrices) (index : Nat) (bTokens : Int) : Int :=
  match reserves[index]? with
  | none => 0
  | some reserve => match prices.prices[reserve.asset]? with
    | none => 0
    | some price => reserve.heldBase price bTokens

/-- What a map of collateral is worth. -/
def collateralSum (reserves : BTreeMap Nat Reserve) (prices : OraclePrices) (collateral : BTreeMap Nat Int) : Int :=
  (collateral.toList.map fun entry => heldBaseAt reserves prices entry.1 entry.2).sum

/-- What a map of liabilities is worth. -/
def liabilitySum (reserves : BTreeMap Nat Reserve) (prices : OraclePrices) (liabilities : BTreeMap Nat Int) : Int :=
  (liabilities.toList.map fun entry => worthOf reserves prices Prod.fst entry.1 entry.2).sum

section Sums

variable {reserves : BTreeMap Nat Reserve} {prices : OraclePrices}

@[simp] theorem heldBaseAt_zero (index : Nat) : heldBaseAt reserves prices index 0 = 0 := by
  unfold heldBaseAt
  split
  · rfl
  · split
    · rfl
    · simp

theorem heldBaseAt_eq {index : Nat} {reserve : Reserve} {price : Int} (hr : reserves[index]? = some reserve)
    (hp : prices.price reserve.asset = .ok price) (bTokens : Int) :
    heldBaseAt reserves prices index bTokens = reserve.heldBase price bTokens := by
  simp only [OraclePrices.price] at hp
  split at hp
  · next heq =>
    cases hp
    simp only [heldBaseAt, hr, heq]
  · cases hp

/-- An entry the collateral loop can look up. -/
def Priced (reserves : BTreeMap Nat Reserve) (prices : OraclePrices) (index : Nat) : Prop :=
  ∃ reserve price, reserves[index]? = some reserve ∧ prices.price reserve.asset = .ok price

theorem addCollateral_sum {data data' : PositionData} {entry : Nat × Int}
    (h : addCollateral reserves prices data entry = .ok data') :
    data'.collateralBase = data.collateralBase + heldBaseAt reserves prices entry.1 entry.2 ∧
      (entry.2 ≠ 0 → Priced reserves prices entry.1) := by
  obtain ⟨index, bTokens⟩ := entry
  simp only [addCollateral] at h
  split at h
  · next hzero =>
    rw [pure_ok_iff] at h
    subst h hzero
    exact ⟨by simp, fun hne => absurd rfl hne⟩
  simp only [bind_ok_iff, pure_ok_iff, Reserve.toEffectiveAssetFromBToken, Reserve.toAssetFromBToken,
    mulFloor_eq SCALAR_12_pos, mulFloor_eq SCALAR_7_pos] at h
  obtain ⟨r, hr, price, hp, effective, ⟨worth, hw, he⟩, _, -, value, hv, base, hb, _, -, _, -, rfl⟩ := h
  have hr := reserveAt_ok_iff.1 hr
  rw [mulFloor_eq r.scalar_pos] at hv
  refine ⟨?_, fun _ => ⟨r, price, hr, hp⟩⟩
  dsimp only
  rw [heldBaseAt_eq hr hp, narrow_ok hb, narrow_ok hv, narrow_ok he, narrow_ok hw]
  rfl

theorem foldlM_addCollateral_sum {data data' : PositionData} {l : List (Nat × Int)}
    (h : l.foldlM (addCollateral reserves prices) data = .ok data') :
    data'.collateralBase = data.collateralBase + (l.map fun e => heldBaseAt reserves prices e.1 e.2).sum ∧
      ∀ entry ∈ l, entry.2 ≠ 0 → Priced reserves prices entry.1 := by
  induction l generalizing data with
  | nil =>
    rw [List.foldlM_nil, pure_ok_iff] at h
    subst h
    simp
  | cons entry rest ih =>
    rw [List.foldlM_cons, bind_ok_iff] at h
    obtain ⟨mid, hmid, hrest⟩ := h
    obtain ⟨hbase, hpriced⟩ := addCollateral_sum hmid
    obtain ⟨hsum, hall⟩ := ih hrest
    refine ⟨?_, fun e he => ?_⟩
    · rw [List.map_cons, List.sum_cons, hsum, hbase]
      omega
    · rcases List.mem_cons.1 he with rfl | he
      · exact hpriced
      · exact hall e he

/-- Where the valuation answers, its bases are the sums, and every entry was
looked up. -/
theorem calculatePositionData_sums {p : Positions} {data : PositionData}
    (h : calculatePositionData reserves prices p = .ok data) :
    data.collateralBase = collateralSum reserves prices p.collateral ∧
      data.liabilityBase = liabilitySum reserves prices p.liabilities ∧ data.scalar = prices.scalar ∧
      (∀ index, p.collateral.getD index 0 ≠ 0 → Priced reserves prices index) ∧
      ∀ index, p.liabilities.getD index 0 ≠ 0 →
        ∃ worth, liabilityWorth reserves prices index (p.liabilities.getD index 0) = .ok worth := by
  simp only [calculatePositionData, bind_ok_iff] at h
  obtain ⟨mid, hmid, hfold⟩ := h
  obtain ⟨hb0, hr0, hs0⟩ := foldlM_addCollateral_frame hmid
  obtain ⟨hsum, hpriced⟩ := foldlM_addCollateral_sum hmid
  simp only at hb0 hr0 hs0 hsum
  have hmax : (0 : Int) ≤ i128Max := by decide
  obtain ⟨hbase, -, hvalued, -, -, hc, hs⟩ := foldlM_addLiability_ok (by omega) (by omega) hfold
  refine ⟨?_, ?_, by rw [hs, hs0], fun index hne => ?_, fun index hne => ?_⟩
  · rw [hc, hsum]
    simp only [collateralSum]
    omega
  · rw [hbase, hb0]
    simp only [liabilitySum]
    omega
  · cases hget : p.collateral[index]? with
    | none => rw [Std.ExtTreeMap.getD_eq_getD_getElem?, hget] at hne; exact absurd rfl hne
    | some held =>
      rw [TreeMaps.getD_of_getElem? hget] at hne
      exact hpriced (index, held) (Std.ExtTreeMap.mem_toList_iff_getElem?_eq_some.2 hget) hne
  · cases hget : p.liabilities[index]? with
    | none => rw [Std.ExtTreeMap.getD_eq_getD_getElem?, hget] at hne; exact absurd rfl hne
    | some owed =>
      rw [TreeMaps.getD_of_getElem? hget] at hne ⊢
      exact hvalued (index, owed) (Std.ExtTreeMap.mem_toList_iff_getElem?_eq_some.2 hget) hne

/-! ## What can go wrong -/

theorem narrow_okOr (x : Int) : OkOr .overflow (narrow x) := by
  unfold narrow checked
  split
  · exact .inl ⟨_, rfl⟩
  · exact .inr rfl

theorem mulDiv_okOr {x y z : Int} {rounding : Rounding} (hz : 0 < z) : OkOr .overflow (mulDiv x y z rounding) := by
  rw [mulDiv_eq hz]
  exact narrow_okOr _

theorem addCollateral_okOr {data : PositionData} {entry : Nat × Int}
    (h : entry.2 ≠ 0 → Priced reserves prices entry.1) :
    OkOr .overflow (addCollateral reserves prices data entry) := by
  obtain ⟨index, bTokens⟩ := entry
  simp only [addCollateral]
  split
  · exact .inl ⟨_, rfl⟩
  next hne =>
  obtain ⟨reserve, price, hr, hp⟩ := h hne
  refine OkOr.bind (.ok (reserveAt_ok_iff.2 hr)) fun r hr' => ?_
  obtain rfl : reserve = r := Except.ok.inj ((reserveAt_ok_iff.2 hr).symm.trans hr')
  refine OkOr.bind (.ok hp) fun _ _ => ?_
  refine OkOr.bind (OkOr.bind (mulDiv_okOr SCALAR_12_pos) fun _ _ => mulDiv_okOr SCALAR_7_pos) fun _ _ => ?_
  refine OkOr.bind (mulDiv_okOr SCALAR_12_pos) fun _ _ => ?_
  refine OkOr.bind (mulDiv_okOr reserve.scalar_pos) fun _ _ => OkOr.bind (narrow_okOr _) fun _ _ => ?_
  refine OkOr.bind (mulDiv_okOr reserve.scalar_pos) fun _ _ => OkOr.bind (narrow_okOr _) fun _ _ => ?_
  exact .inl ⟨_, rfl⟩

theorem addLiability_okOr {data : PositionData} {entry : Nat × Int}
    (h : entry.2 ≠ 0 → ∃ worth, liabilityWorth reserves prices entry.1 entry.2 = .ok worth) :
    OkOr .overflow (addLiability reserves prices data entry) := by
  obtain ⟨index, dTokens⟩ := entry
  simp only [addLiability]
  split
  · exact .inl ⟨_, rfl⟩
  next hne =>
  obtain ⟨worth, hw⟩ := h hne
  simp only [liabilityWorth, bind_ok_iff, pure_ok_iff] at hw
  obtain ⟨r, hr, price, hp, effective, he, raw, hraw, base, hbase, rawBase, hrawBase, rfl⟩ := hw
  refine OkOr.bind (.ok hr) fun r' hr' => ?_
  obtain rfl : r = r' := Except.ok.inj (hr.symm.trans hr')
  refine OkOr.bind (.ok hp) fun price' hp' => ?_
  refine OkOr.bind (.ok he) fun _ _ => OkOr.bind (.ok hraw) fun _ _ => ?_
  refine OkOr.bind (mulDiv_okOr r.scalar_pos) fun _ _ => OkOr.bind (narrow_okOr _) fun _ _ => ?_
  refine OkOr.bind (mulDiv_okOr r.scalar_pos) fun _ _ => OkOr.bind (narrow_okOr _) fun _ _ => ?_
  exact .inl ⟨_, rfl⟩

/-- A position each of whose entries can be looked up is valued, or
overflows. -/
theorem calculatePositionData_okOr {p : Positions}
    (hc : ∀ index, p.collateral.getD index 0 ≠ 0 → Priced reserves prices index)
    (hl : ∀ index, p.liabilities.getD index 0 ≠ 0 →
      ∃ worth, liabilityWorth reserves prices index (p.liabilities.getD index 0) = .ok worth) :
    OkOr .overflow (calculatePositionData reserves prices p) := by
  unfold calculatePositionData
  refine OkOr.bind (OkOr.foldlM fun entry he acc => addCollateral_okOr fun hne => ?_) fun data _ =>
    OkOr.foldlM fun entry he acc => addLiability_okOr fun hne => ?_
  · have hget := TreeMaps.getD_of_getElem? (d := 0) (Std.ExtTreeMap.mem_toList_iff_getElem?_eq_some.1 he)
    exact hc entry.1 (by rw [hget]; exact hne)
  · have hget := TreeMaps.getD_of_getElem? (d := 0) (Std.ExtTreeMap.mem_toList_iff_getElem?_eq_some.1 he)
    have hworth := hl entry.1 (by rw [hget]; exact hne)
    rw [hget] at hworth
    exact hworth

/-- Debts that are debts weigh nothing less than nothing. -/
theorem calculatePositionData_liability_nonneg {p : Positions} {data : PositionData}
    (hrates : ∀ (index : Nat) (reserve : Reserve), reserves[index]? = some reserve → 0 ≤ reserve.data.dRate)
    (howed : ∀ index, 0 ≤ p.liabilities.getD index 0) (h : calculatePositionData reserves prices p = .ok data) :
    0 ≤ data.liabilityBase := by
  obtain ⟨data', hdata', -, -, h0, -⟩ :=
    calculatePositionData_of_le hrates rfl (fun index => ⟨howed index, le_rfl⟩) h
  rw [h] at hdata'
  cases hdata'
  exact h0

end Sums

/-! ## Less collateral -/

/-- A valuation with no more collateral, and the same debts. -/
structure WorthLess (high low : PositionData) : Prop where
  base : 0 ≤ low.collateralBase ∧ low.collateralBase ≤ high.collateralBase
  raw : 0 ≤ low.collateralRaw ∧ low.collateralRaw ≤ high.collateralRaw
  liabilityBase : low.liabilityBase = high.liabilityBase
  liabilityRaw : low.liabilityRaw = high.liabilityRaw
  scalar : low.scalar = high.scalar

/-- A health factor of no more collateral against the same debts is no higher. -/
theorem healthFactor_lowered {high low : PositionData} {hf : Option Int} (hless : WorthLess high low)
    (hdebt : 0 ≤ high.liabilityBase) (hscalar : 0 ≤ high.scalar) (h : high.healthFactor = .ok hf) :
    ∃ hf', low.healthFactor = .ok hf' ∧ (hf = none ↔ hf' = none) ∧
      ∀ value value', hf = some value → hf' = some value' → value' ≤ value := by
  simp only [PositionData.healthFactor, hless.liabilityBase, hless.scalar] at h ⊢
  split at h
  · next hnone =>
    cases h
    rw [if_pos hnone]
    exact ⟨none, rfl, by simp⟩
  · next hsome =>
    rw [if_neg hsome]
    rw [map_ok_iff] at h
    obtain ⟨value, hvalue, rfl⟩ := h
    have hpos : 0 < high.liabilityBase := by omega
    obtain ⟨value', hvalue', -, hle⟩ := mulFloor_mono hpos hless.base.1 hscalar hless.base.2 le_rfl hvalue
    refine ⟨some value', map_ok_iff.2 ⟨value', hvalue', rfl⟩, by simp, ?_⟩
    intro a b ha hb
    cases ha
    cases hb
    exact hle

/-! ## The default path and debts -/

/-- What a liability's worth depends on. -/
def Reserve.debtTerms (r : Reserve) : String × ReserveConfig × Int := (r.asset, r.config, r.data.dRate)

/-- The same reserves as far as debts go. -/
def SameDebts (before after : BTreeMap Nat Reserve) : Prop :=
  ∀ index : Nat, after[index]?.map Reserve.debtTerms = before[index]?.map Reserve.debtTerms

/-- What the default path leaves of the reserves: the debts' terms, and no
b-rate below nothing. -/
structure Defaulted (before after : BTreeMap Nat Reserve) : Prop where
  debts : SameDebts before after
  rates : (∀ (index : Nat) (reserve : Reserve), before[index]? = some reserve → 0 ≤ reserve.data.bRate) →
    ∀ (index : Nat) (reserve : Reserve), after[index]? = some reserve → 0 ≤ reserve.data.bRate

theorem Defaulted.refl (reserves : BTreeMap Nat Reserve) : Defaulted reserves reserves := ⟨fun _ => rfl, id⟩

theorem Defaulted.trans {before mid after : BTreeMap Nat Reserve} (h : Defaulted before mid)
    (h' : Defaulted mid after) : Defaulted before after :=
  ⟨fun index => (h'.debts index).trans (h.debts index), fun h0 => h'.rates (h.rates h0)⟩

theorem setOff_kept {reserve reserve' : Reserve} {dTokens claim defaulted : Int}
    (h : setOff reserve dTokens claim = .ok (reserve', defaulted)) :
    reserve'.debtTerms = reserve.debtTerms ∧ reserve'.data.bRate = reserve.data.bRate := by
  simp only [setOff] at h
  split at h
  · simp only [bind_ok_iff] at h
    obtain ⟨_, -, _, -, _, -, _, -, h⟩ := h
    split at h
    · simp only [bind_ok_iff, pure_ok_iff, Prod.mk.injEq] at h
      obtain ⟨_, -, _, -, _, -, rfl, -⟩ := h
      exact ⟨rfl, rfl⟩
    · simp only [pure_ok_iff, Prod.mk.injEq] at h
      obtain ⟨rfl, -⟩ := h
      exact ⟨rfl, rfl⟩
  · simp only [pure_ok_iff, Prod.mk.injEq] at h
    obtain ⟨rfl, -⟩ := h
    exact ⟨rfl, rfl⟩

theorem destroyDebt_kept {reserve reserve' : Reserve} {defaulted : Int}
    (h : destroyDebt reserve defaulted = .ok reserve') :
    reserve'.debtTerms = reserve.debtTerms ∧ (0 ≤ reserve.data.bRate → 0 ≤ reserve'.data.bRate) := by
  simp only [destroyDebt, bind_ok_iff] at h
  obtain ⟨_, -, h⟩ := h
  split at h
  · simp only [bind_ok_iff, pure_ok_iff] at h
    obtain ⟨_, -, _, -, left, -, rfl⟩ := h
    exact ⟨rfl, fun _ => le_max_right left 0⟩
  · rw [pure_ok_iff] at h
    subst h
    exact ⟨rfl, id⟩

theorem defaultLiability_defaulted {supply : BTreeMap Nat Int} {outcome outcome' : DefaultOutcome}
    {entry : Nat × Int} (h : defaultLiability supply outcome entry = .ok outcome') :
    Defaulted outcome.reserves outcome'.reserves := by
  obtain ⟨index, dTokens⟩ := entry
  simp only [defaultLiability, bind_ok_iff] at h
  obtain ⟨reserve, hr, ⟨mid, defaulted⟩, hmid, h⟩ := h
  have hr := reserveAt_ok_iff.1 hr
  obtain ⟨hmid, hrate⟩ := setOff_kept hmid
  have hinsert : ∀ reserve' : Reserve, reserve'.debtTerms = reserve.debtTerms →
      (0 ≤ reserve.data.bRate → 0 ≤ reserve'.data.bRate) →
      Defaulted outcome.reserves (outcome.reserves.insert index reserve') := by
    intro reserve' hsame hrate'
    refine ⟨fun i => ?_, fun h0 i r hi => ?_⟩
    · rw [TreeMaps.getElem?_insert]
      split
      · next heq => subst heq; rw [hr, Option.map_some, Option.map_some, hsame]
      · rfl
    · rw [TreeMaps.getElem?_insert] at hi
      split at hi
      · cases hi
        exact hrate' (h0 index reserve hr)
      · exact h0 i r hi
  split at h
  · simp only [bind_ok_iff, pure_ok_iff] at h
    obtain ⟨reserve', hdestroy, rfl⟩ := h
    obtain ⟨hsame, hrate'⟩ := destroyDebt_kept hdestroy
    exact hinsert reserve' (hsame.trans hmid) fun h0 => hrate' (hrate ▸ h0)
  · rw [pure_ok_iff] at h
    subst h
    exact hinsert mid hmid fun h0 => hrate ▸ h0

theorem projectDefault_defaulted {reserves : BTreeMap Nat Reserve} {prices : OraclePrices} {borrower : Positions}
    {outcome : DefaultOutcome} (h : projectDefault reserves prices borrower = .ok outcome) :
    Defaulted reserves outcome.reserves := by
  simp only [projectDefault] at h
  split at h
  · rw [pure_ok_iff] at h
    subst h
    exact .refl reserves
  simp only [bind_ok_iff] at h
  obtain ⟨data, -, h⟩ := h
  split at h
  · rw [pure_ok_iff] at h
    subst h
    exact .refl reserves
  exact foldlM_inv (fun _ outcome => Defaulted reserves outcome.reserves)
    (fun _ _ _ _ hacc hstep => hacc.trans (defaultLiability_defaulted hstep)) (.refl reserves) h

/-- The same debts, reserve by reserve. -/
theorem SameDebts.cases {before after : BTreeMap Nat Reserve} (h : SameDebts before after) (index : Nat) :
    before[index]? = none ∧ after[index]? = none ∨ ∃ reserve reserve' : Reserve,
      before[index]? = some reserve ∧ after[index]? = some reserve' ∧ reserve'.asset = reserve.asset ∧
      reserve'.config = reserve.config ∧ reserve'.data.dRate = reserve.data.dRate ∧ reserve'.scalar = reserve.scalar := by
  have hsame := h index
  cases hb : before[index]? with
  | none =>
    rw [hb] at hsame
    exact .inl ⟨rfl, Option.map_eq_none_iff.1 hsame⟩
  | some reserve =>
    rw [hb] at hsame
    obtain ⟨reserve', ha, hterms⟩ := Option.map_eq_some_iff.1 hsame
    simp only [Reserve.debtTerms, Prod.mk.injEq] at hterms
    obtain ⟨hasset, hconfig, hrate⟩ := hterms
    exact .inr ⟨reserve, reserve', rfl, ha, hasset, hconfig, hrate, by
      rw [reserve'.scalar_eq, reserve.scalar_eq, hconfig]⟩

theorem SameDebts.dRate_nonneg {before after : BTreeMap Nat Reserve} (h : SameDebts before after)
    (hrates : ∀ (index : Nat) (reserve : Reserve), before[index]? = some reserve → 0 ≤ reserve.data.dRate)
    (index : Nat) (reserve : Reserve) (hr : after[index]? = some reserve) : 0 ≤ reserve.data.dRate := by
  rcases h.cases index with ⟨-, hnone⟩ | ⟨reserve₀, reserve', hb, ha, -, -, hrate, -⟩
  · rw [hr] at hnone
    cases hnone
  · rw [hr] at ha
    cases ha
    rw [hrate]
    exact hrates index reserve₀ hb

/-- A liability is worth the same before the default path and after it. -/
theorem SameDebts.liabilityWorth_eq {before after : BTreeMap Nat Reserve} (h : SameDebts before after) (prices : OraclePrices)
    (index : Nat) (dTokens : Int) :
    liabilityWorth after prices index dTokens = liabilityWorth before prices index dTokens := by
  rcases h.cases index with ⟨hb, ha⟩ | ⟨reserve, reserve', hb, ha, hasset, hconfig, hrate, hscalar⟩
  · simp only [liabilityWorth, reserveAt, hb, ha]
  · simp only [liabilityWorth, reserveAt, hb, ha, Reserve.toEffectiveAssetFromDToken, Reserve.toAssetFromDToken, hasset,
      hconfig, hrate, hscalar, bind, Except.bind]

/-- More of a collateral at a rate no lower is worth no less. -/
theorem heldBaseAt_mono {before after : BTreeMap Nat Reserve} {prices : OraclePrices}
    (hdebts : SameDebts before after) {index : Nat} {held more : Int} (h0 : 0 ≤ held) (hle : held ≤ more)
    (hnonneg : ∀ (index : Nat) (reserve : Reserve), after[index]? = some reserve → 0 ≤ reserve.data.bRate)
    (hrate : ∀ reserve reserve' : Reserve, before[index]? = some reserve → after[index]? = some reserve' → 0 < more →
      reserve.data.bRate ≤ reserve'.data.bRate) :
    heldBaseAt before prices index held ≤ heldBaseAt after prices index more := by
  by_cases hz : more = 0
  · have hzero : held = 0 := by omega
    rw [hz, hzero, heldBaseAt_zero, heldBaseAt_zero]
  rcases hdebts.cases index with ⟨hb, ha⟩ | ⟨reserve, reserve', hb, ha, hasset, hconfig, -, hscalar⟩
  · simp only [heldBaseAt, hb, ha]
    exact le_rfl
  have hbRate := hrate reserve reserve' hb ha (by omega)
  have hbRate0 := hnonneg index reserve' ha
  have hworth : reserve.worth held ≤ reserve'.worth more := by
    refine Int.ediv_le_ediv SCALAR_12_pos ?_
    exact (Int.mul_le_mul_of_nonneg_left hbRate h0).trans (Int.mul_le_mul_of_nonneg_right hle hbRate0)
  simp only [heldBaseAt, hb, ha, hasset]
  split
  · exact le_rfl
  · next price hprice =>
    have hpos := prices.prices_pos _ _ hprice
    unfold Reserve.heldBase
    rw [hscalar, hconfig]
    refine Int.ediv_le_ediv reserve.scalar_pos (Int.mul_le_mul_of_nonneg_left ?_ hpos.le)
    exact Int.ediv_le_ediv SCALAR_7_pos (Int.mul_le_mul_of_nonneg_right hworth (by omega))

end BlendLiquidator
