/-
Valuing a position that owes less: with the same collateral, and no
liability above the other's, the valuation succeeds wherever the other does,
on the same collateral and no more liabilities
(`calculatePositionData_of_le`).

A liability entry is worth two base amounts, both ceilings of ceilings, so
both fall with the d-tokens and neither overflows where the larger did not.
-/
import BlendLiquidator.FixedFacts
import BlendLiquidator.Position
import BlendLiquidator.TreeMaps

namespace BlendLiquidator

open Results IntDiv

/-- What a liability entry adds to the valuation: base and raw. -/
def liabilityWorth (reserves : BTreeMap Nat Reserve) (prices : OraclePrices) (index : Nat)
    (dTokens : Int) : Except MathError (Int × Int) := do
  let reserve ← reserveAt reserves index
  let price ← prices.price reserve.asset
  let effective ← reserve.toEffectiveAssetFromDToken dTokens
  let raw ← reserve.toAssetFromDToken dTokens
  let base ← mulCeil price effective reserve.scalar
  let rawBase ← mulCeil price raw reserve.scalar
  pure (base, rawBase)

/-- A valuation with one liability's worth on top. -/
def PositionData.owing (data : PositionData) (worth : Int × Int) : PositionData :=
  { data with liabilityBase := data.liabilityBase + worth.1, liabilityRaw := data.liabilityRaw + worth.2 }

theorem addLiability_ok_iff {reserves prices} {data data' : PositionData} {index : Nat} {dTokens : Int} :
    addLiability reserves prices data (index, dTokens) = .ok data' ↔
      dTokens = 0 ∧ data = data' ∨
      dTokens ≠ 0 ∧ ∃ worth, liabilityWorth reserves prices index dTokens = .ok worth ∧
        (i128Min ≤ data.liabilityBase + worth.1 ∧ data.liabilityBase + worth.1 ≤ i128Max) ∧
        (i128Min ≤ data.liabilityRaw + worth.2 ∧ data.liabilityRaw + worth.2 ≤ i128Max) ∧
        data.owing worth = data' := by
  simp only [addLiability]
  by_cases h0 : dTokens = 0
  · simp [h0, pure_ok_iff]
  simp only [h0, ↓reduceIte, bind_ok_iff, pure_ok_iff, narrow_ok_iff, liabilityWorth, false_and, false_or,
    ne_eq, not_false_eq_true, true_and]
  constructor
  · rintro ⟨r, hr, p, hp, e, he, w, hw, b, hb, b', ⟨rfl, hbr⟩, c, hc, c', ⟨rfl, hcr⟩, rfl⟩
    exact ⟨(b, c), ⟨r, hr, p, hp, e, he, w, hw, b, hb, c, hc, rfl⟩, hbr, hcr, rfl⟩
  · rintro ⟨worth, ⟨r, hr, p, hp, e, he, w, hw, b, hb, c, hc, rfl⟩, hbr, hcr, rfl⟩
    exact ⟨r, hr, p, hp, e, he, w, hw, b, hb, _, ⟨rfl, hbr⟩, c, hc, _, ⟨rfl, hcr⟩, rfl⟩

theorem reserveAt_ok_iff {reserves : BTreeMap Nat Reserve} {index : Nat} {reserve : Reserve} :
    reserveAt reserves index = .ok reserve ↔ reserves[index]? = some reserve := by
  simp only [reserveAt]
  split
  · next heq => rw [heq]; simp
  · next heq => rw [heq]; simp

theorem price_pos {prices : OraclePrices} {asset : String} {price : Int}
    (h : prices.price asset = .ok price) : 0 < price := by
  simp only [OraclePrices.price] at h
  split at h
  · next heq => cases h; exact prices.prices_pos _ _ heq
  · cases h

theorem Reserve.scalar_pos (r : Reserve) : 0 < r.scalar := by
  rw [r.scalar_eq]
  exact Int.pow_pos (by decide)

/-- An entry's worth as a total function: nothing when it is not valued. -/
def worthOf (reserves : BTreeMap Nat Reserve) (prices : OraclePrices) (pick : Int × Int → Int)
    (index : Nat) (dTokens : Int) : Int :=
  if dTokens = 0 then 0
  else match liabilityWorth reserves prices index dTokens with
    | .ok worth => pick worth
    | .error _ => 0

section Worths

variable {reserves : BTreeMap Nat Reserve} {prices : OraclePrices}

@[simp] theorem worthOf_zero {pick : Int × Int → Int} {index : Nat} :
    worthOf reserves prices pick index 0 = 0 := by
  simp [worthOf]

theorem worthOf_ok {pick : Int × Int → Int} {index : Nat} {d : Int} {worth : Int × Int} (hd : d ≠ 0)
    (h : liabilityWorth reserves prices index d = .ok worth) :
    worthOf reserves prices pick index d = pick worth := by
  simp [worthOf, hd, h]

/-- The two amounts an entry contributes. -/
def Picks (pick : Int × Int → Int) : Prop := pick = Prod.fst ∨ pick = Prod.snd

/-- A list of valued entries is worth no less than nothing. -/
theorem worths_nonneg {pick : Int × Int → Int} (hpick : Picks pick) {l : List (Nat × Int)}
    (hvalued : ∀ entry ∈ l, entry.2 ≠ 0 → ∃ worth,
      liabilityWorth reserves prices entry.1 entry.2 = .ok worth ∧ 0 ≤ worth.1 ∧ 0 ≤ worth.2) :
    0 ≤ (l.map fun entry => worthOf reserves prices pick entry.1 entry.2).sum := by
  refine List.sum_nonneg ?_
  simp only [List.mem_map, forall_exists_index, and_imp, forall_apply_eq_imp_iff₂]
  intro entry he
  by_cases hz : entry.2 = 0
  · rw [hz, worthOf_zero]
  · obtain ⟨worth, hw, h1, h2⟩ := hvalued entry he hz
    rw [worthOf_ok hz hw]
    rcases hpick with rfl | rfl
    · exact h1
    · exact h2

/-- What the liability loop leaves, and what it took for granted: the worths
summed, every entry valued, and the sums within range. -/
theorem foldlM_addLiability_ok {data data' : PositionData} {l : List (Nat × Int)}
    (hb : data.liabilityBase ≤ i128Max) (hr : data.liabilityRaw ≤ i128Max)
    (h : l.foldlM (addLiability reserves prices) data = .ok data') :
    data'.liabilityBase = data.liabilityBase +
        (l.map fun entry => worthOf reserves prices Prod.fst entry.1 entry.2).sum ∧
      data'.liabilityRaw = data.liabilityRaw +
        (l.map fun entry => worthOf reserves prices Prod.snd entry.1 entry.2).sum ∧
      (∀ entry ∈ l, entry.2 ≠ 0 → ∃ worth, liabilityWorth reserves prices entry.1 entry.2 = .ok worth) ∧
      data'.liabilityBase ≤ i128Max ∧ data'.liabilityRaw ≤ i128Max ∧
      data'.collateralBase = data.collateralBase ∧ data'.scalar = data.scalar := by
  induction l generalizing data with
  | nil =>
    rw [List.foldlM_nil, pure_ok_iff] at h
    subst h
    simp [hb, hr]
  | cons entry rest ih =>
    obtain ⟨index, d⟩ := entry
    rw [List.foldlM_cons, bind_ok_iff] at h
    obtain ⟨mid, hmid, hrest⟩ := h
    rcases addLiability_ok_iff.1 hmid with ⟨rfl, rfl⟩ | ⟨hd, worth, hw, hbr, hrr, rfl⟩
    · obtain ⟨h1, h2, h3, h4⟩ := ih hb hr hrest
      refine ⟨by simpa using h1, by simpa using h2, ?_, h4⟩
      intro entry he hne
      rcases List.mem_cons.1 he with rfl | he
      · exact absurd rfl hne
      · exact h3 entry he hne
    · obtain ⟨h1, h2, h3, h4⟩ := ih hbr.2 hrr.2 hrest
      simp only [List.map_cons, List.sum_cons, worthOf_ok hd hw]
      refine ⟨by rw [h1]; simp only [PositionData.owing]; omega,
        by rw [h2]; simp only [PositionData.owing]; omega, ?_, h4⟩
      intro entry he hne
      rcases List.mem_cons.1 he with rfl | he
      · exact ⟨worth, hw⟩
      · exact h3 entry he hne

/-- The loop succeeds on entries that are all valued, when the sums fit. -/
theorem foldlM_addLiability_of_fits {data : PositionData} {l : List (Nat × Int)}
    (hb : 0 ≤ data.liabilityBase) (hr : 0 ≤ data.liabilityRaw)
    (hvalued : ∀ entry ∈ l, entry.2 ≠ 0 → ∃ worth,
      liabilityWorth reserves prices entry.1 entry.2 = .ok worth ∧ 0 ≤ worth.1 ∧ 0 ≤ worth.2)
    (hbase : data.liabilityBase +
      (l.map fun entry => worthOf reserves prices Prod.fst entry.1 entry.2).sum ≤ i128Max)
    (hraw : data.liabilityRaw +
      (l.map fun entry => worthOf reserves prices Prod.snd entry.1 entry.2).sum ≤ i128Max) :
    ∃ data', l.foldlM (addLiability reserves prices) data = .ok data' := by
  induction l generalizing data with
  | nil => exact ⟨data, rfl⟩
  | cons entry rest ih =>
    obtain ⟨index, d⟩ := entry
    have hrest := fun e he => hvalued e (List.mem_cons_of_mem _ he)
    have hfst := worths_nonneg (.inl rfl) hrest
    have hsnd := worths_nonneg (.inr rfl) hrest
    simp only [List.map_cons, List.sum_cons] at hbase hraw
    simp only [List.foldlM_cons, bind_ok_iff]
    by_cases hd : d = 0
    · subst hd
      simp only [worthOf_zero] at hbase hraw
      obtain ⟨data', h'⟩ := ih hb hr hrest (by omega) (by omega)
      exact ⟨data', data, addLiability_ok_iff.2 (.inl ⟨rfl, rfl⟩), h'⟩
    · obtain ⟨worth, hw, h1, h2⟩ := hvalued (index, d) (by simp) hd
      rw [worthOf_ok hd hw] at hbase hraw
      have hmin : i128Min ≤ 0 := by decide
      obtain ⟨data', h'⟩ := @ih (data.owing worth) (by simp only [PositionData.owing]; omega)
        (by simp only [PositionData.owing]; omega) hrest (by simp only [PositionData.owing]; omega)
        (by simp only [PositionData.owing]; omega)
      exact ⟨data', _, addLiability_ok_iff.2 (.inr ⟨hd, worth, hw, by omega, by omega, rfl⟩), h'⟩

/-- The collateral loop touches no liability and keeps the scale. -/
theorem foldlM_addCollateral_frame {data data' : PositionData} {l : List (Nat × Int)}
    (h : l.foldlM (addCollateral reserves prices) data = .ok data') :
    data'.liabilityBase = data.liabilityBase ∧ data'.liabilityRaw = data.liabilityRaw ∧
      data'.scalar = data.scalar := by
  refine foldlM_inv (fun _ d => d.liabilityBase = data.liabilityBase ∧
    d.liabilityRaw = data.liabilityRaw ∧ d.scalar = data.scalar) ?_ ⟨rfl, rfl, rfl⟩ h
  rintro ⟨index, bTokens⟩ rest d d' hd hstep
  simp only [addCollateral] at hstep
  split at hstep
  · rw [← pure_ok_iff.1 hstep]; exact hd
  · simp only [bind_ok_iff, pure_ok_iff] at hstep
    obtain ⟨_, -, _, -, _, -, _, -, _, -, _, -, _, -, _, -, rfl⟩ := hstep
    exact hd

end Worths

section Owing

variable {reserves : BTreeMap Nat Reserve} {prices : OraclePrices}
  (hrates : ∀ (index : Nat) (reserve : Reserve), reserves[index]? = some reserve → 0 ≤ reserve.data.dRate)

include hrates

/-- Fewer d-tokens are worth no more, and are valued wherever more are. -/
theorem liabilityWorth_mono {index : Nat} {d d' : Int} {worth : Int × Int} (h0 : 0 ≤ d') (hle : d' ≤ d)
    (h : liabilityWorth reserves prices index d = .ok worth) :
    ∃ worth', liabilityWorth reserves prices index d' = .ok worth' ∧
      (0 ≤ worth'.1 ∧ worth'.1 ≤ worth.1) ∧ (0 ≤ worth'.2 ∧ worth'.2 ≤ worth.2) := by
  simp only [liabilityWorth, bind_ok_iff, pure_ok_iff, Reserve.toEffectiveAssetFromDToken] at h ⊢
  obtain ⟨r, hr, p, hp, e, ⟨a, ha, he⟩, w, hw, b, hb, c, hc, rfl⟩ := h
  have hrate := hrates index r (reserveAt_ok_iff.1 hr)
  have hprice := price_pos hp
  have hlf : (0 : Int) < r.config.lFactor := by
    by_contra hneg
    have hzero : (r.config.lFactor : Int) = 0 := by omega
    rw [hzero] at he
    simp [divCeil, mulDiv] at he
  obtain ⟨a', ha', ha0, hale⟩ := mulCeil_mono SCALAR_12_pos h0 hrate hle le_rfl ha
  obtain rfl : w = a := by rw [Reserve.toAssetFromDToken] at ha hw; simpa [ha] using hw.symm
  obtain ⟨e', he', he0, hele⟩ := mulCeil_mono hlf ha0 SCALAR_7_pos.le hale le_rfl he
  obtain ⟨b', hb', hb0, hble⟩ := mulCeil_mono r.scalar_pos hprice.le he0 le_rfl hele hb
  obtain ⟨c', hc', hc0, hcle⟩ := mulCeil_mono r.scalar_pos hprice.le ha0 le_rfl hale hc
  exact ⟨(b', c'), ⟨r, hr, p, hp, e', ⟨a', ha', he'⟩, a', ha', b', hb', c', hc', rfl⟩,
    ⟨hb0, hble⟩, ⟨hc0, hcle⟩⟩

theorem worthOf_le {pick : Int × Int → Int} (hpick : Picks pick) {index : Nat} {d d' : Int}
    (h0 : 0 ≤ d') (hle : d' ≤ d) (hd : d ≠ 0 → ∃ worth, liabilityWorth reserves prices index d = .ok worth) :
    worthOf reserves prices pick index d' ≤ worthOf reserves prices pick index d := by
  by_cases hz : d = 0
  · obtain rfl : d' = d := by omega
    exact le_rfl
  obtain ⟨worth, hw⟩ := hd hz
  obtain ⟨worth', hw', h1, h2⟩ := liabilityWorth_mono hrates h0 hle hw
  rw [worthOf_ok hz hw]
  by_cases hz' : d' = 0
  · rw [hz', worthOf_zero]
    rcases hpick with rfl | rfl <;> omega
  · rw [worthOf_ok hz' hw']
    rcases hpick with rfl | rfl <;> omega

/-- **Owing less never hurts.** With the same collateral and no liability
above the other's, a position is valued wherever the other is, at the same
collateral and no more liabilities. -/
theorem calculatePositionData_of_le {p p' : Positions} {data : PositionData}
    (hcol : p'.collateral = p.collateral)
    (hliab : ∀ index, 0 ≤ p'.liabilities.getD index 0 ∧
      p'.liabilities.getD index 0 ≤ p.liabilities.getD index 0)
    (h : calculatePositionData reserves prices p = .ok data) :
    ∃ data', calculatePositionData reserves prices p' = .ok data' ∧
      data'.collateralBase = data.collateralBase ∧ data'.scalar = data.scalar ∧
      0 ≤ data'.liabilityBase ∧ data'.liabilityBase ≤ data.liabilityBase := by
  simp only [calculatePositionData, bind_ok_iff] at h ⊢
  obtain ⟨mid, hmid, hfold⟩ := h
  obtain ⟨hb0, hr0, -⟩ := foldlM_addCollateral_frame hmid
  simp only at hb0 hr0
  have hmax : (0 : Int) ≤ i128Max := by decide
  obtain ⟨hbase, hraw, hvalued, hbm, hrm, hc, hs⟩ :=
    foldlM_addLiability_ok (by omega) (by omega) hfold
  have hworth : ∀ index, p.liabilities.getD index 0 ≠ 0 →
      ∃ worth, liabilityWorth reserves prices index (p.liabilities.getD index 0) = .ok worth := by
    intro index hne
    cases hget : p.liabilities[index]? with
    | none => rw [Std.ExtTreeMap.getD_eq_getD_getElem?, hget] at hne; exact absurd rfl hne
    | some d =>
      rw [TreeMaps.getD_of_getElem? hget] at hne ⊢
      exact hvalued (index, d) (Std.ExtTreeMap.mem_toList_iff_getElem?_eq_some.2 hget) hne
  have hsum : ∀ {pick : Int × Int → Int}, Picks pick →
      (p'.liabilities.toList.map fun e => worthOf reserves prices pick e.1 e.2).sum ≤
        (p.liabilities.toList.map fun e => worthOf reserves prices pick e.1 e.2).sum := fun hpick =>
    TreeMaps.sum_toList_le _ _ (fun k => worthOf_zero) (fun k => worthOf_zero) fun k =>
      worthOf_le hrates hpick (hliab k).1 (hliab k).2 (hworth k)
  have hfst := hsum (.inl rfl)
  have hsnd := hsum (.inr rfl)
  have hvalued' : ∀ entry ∈ p'.liabilities.toList, entry.2 ≠ 0 → ∃ worth,
      liabilityWorth reserves prices entry.1 entry.2 = .ok worth ∧ 0 ≤ worth.1 ∧ 0 ≤ worth.2 := by
    rintro ⟨index, d⟩ he hne
    have hget := TreeMaps.getD_of_getElem? (d := 0) (Std.ExtTreeMap.mem_toList_iff_getElem?_eq_some.1 he)
    have hle := hliab index
    rw [hget] at hle
    obtain ⟨worth, hw⟩ := hworth index (by simp only at hne; omega)
    obtain ⟨worth', hw', h1, h2⟩ := liabilityWorth_mono hrates hle.1 hle.2 hw
    exact ⟨worth', hw', h1.1, h2.1⟩
  have hfits : ∃ data', p'.liabilities.toList.foldlM (addLiability reserves prices) mid = .ok data' :=
    foldlM_addLiability_of_fits (by omega) (by omega) hvalued' (by omega) (by omega)
  obtain ⟨data', hfold'⟩ := hfits
  obtain ⟨hbase', -, -, -, -, hc', hs'⟩ := foldlM_addLiability_ok (by omega) (by omega) hfold'
  refine ⟨data', ⟨mid, by rw [hcol]; exact hmid, hfold'⟩, by rw [hc', hc], by rw [hs', hs], ?_, ?_⟩
  · rw [hbase', hb0]
    have := worths_nonneg (.inl rfl) hvalued'
    omega
  · rw [hbase', hbase]
    omega

end Owing

/-- Collateral held is never worth less than nothing. -/
theorem calculatePositionData_collateral_nonneg {reserves : BTreeMap Nat Reserve} {prices : OraclePrices}
    {p : Positions} {data : PositionData}
    (hrates : ∀ (index : Nat) (reserve : Reserve), reserves[index]? = some reserve → 0 ≤ reserve.data.bRate)
    (hheld : ∀ (index : Nat) (held : Int), p.collateral[index]? = some held → 0 ≤ held)
    (h : calculatePositionData reserves prices p = .ok data) :
    0 ≤ data.collateralBase ∧ data.scalar = prices.scalar := by
  simp only [calculatePositionData, bind_ok_iff] at h
  obtain ⟨mid, hmid, hfold⟩ := h
  obtain ⟨hb, hr, hs⟩ := foldlM_addCollateral_frame hmid
  have hmax : (0 : Int) ≤ i128Max := by decide
  simp only at hb hr
  obtain ⟨-, -, -, -, -, hc, hs'⟩ := foldlM_addLiability_ok (by omega) (by omega) hfold
  have hstep : ∀ (entry : Nat × Int) (rest : List (Nat × Int)) (d d' : PositionData),
      (0 ≤ d.collateralBase ∧ ∀ e ∈ entry :: rest, 0 ≤ e.2) →
      addCollateral reserves prices d entry = .ok d' →
      0 ≤ d'.collateralBase ∧ ∀ e ∈ rest, 0 ≤ e.2 := by
    rintro ⟨index, bTokens⟩ rest d d' ⟨h0, hnn⟩ hadd
    refine ⟨?_, fun e he => hnn e (List.mem_cons_of_mem _ he)⟩
    have hheld : 0 ≤ bTokens := hnn (index, bTokens) (by simp)
    simp only [addCollateral] at hadd
    split at hadd
    · rw [← pure_ok_iff.1 hadd]; exact h0
    simp only [bind_ok_iff, pure_ok_iff, Reserve.toEffectiveAssetFromBToken, Reserve.toAssetFromBToken,
      mulFloor_eq SCALAR_12_pos, mulFloor_eq SCALAR_7_pos] at hadd
    obtain ⟨r, hr, price, hp, e, ⟨a, ha, he⟩, _, -, v, hv, b, hb, _, -, _, -, rfl⟩ := hadd
    rw [mulFloor_eq r.scalar_pos] at hv
    have ha0 : 0 ≤ a := by
      rw [narrow_ok ha]
      exact Int.ediv_nonneg (Int.mul_nonneg hheld (hrates index r (reserveAt_ok_iff.1 hr))) (by decide)
    have he0 : 0 ≤ e := by
      rw [narrow_ok he]
      exact Int.ediv_nonneg (Int.mul_nonneg ha0 (by omega)) (by decide)
    have hv0 : 0 ≤ v := by
      rw [narrow_ok hv]
      exact Int.ediv_nonneg (Int.mul_nonneg (price_pos hp).le he0) r.scalar_pos.le
    have hb := narrow_ok hb
    show 0 ≤ b
    omega
  have hentries : ∀ e ∈ p.collateral.toList, 0 ≤ e.2 := fun e he =>
    hheld e.1 e.2 (Std.ExtTreeMap.mem_toList_iff_getElem?_eq_some.1 he)
  have h0 := foldlM_inv (fun rest d => 0 ≤ d.collateralBase ∧ ∀ e ∈ rest, 0 ≤ e.2) hstep
    ⟨le_rfl, hentries⟩ hmid
  exact ⟨by rw [hc]; exact h0.1, by rw [hs', hs]⟩

end BlendLiquidator
