/-
What a decision rests on, and what it says.

A batch's decisions rest on one snapshot of the borrowers that are not the
bot's own and on one row read for each of them, and a borrower's failure is its
own. A decision on a snapshot splits the borrowers as the numbers do: no debt, a
debt with nothing behind it, a health factor above the threshold, nothing to
close, or a plan that names the borrower's own positions.
-/
import BlendLiquidator.Accrual
import BlendLiquidator.Decide
import BlendLiquidator.UnwindSound

namespace BlendLiquidator

open Calls Results

/-! ## The numbers -/

/-- The health factor in 7 decimals. -/
def PositionData.normalizedHealth (data : PositionData) : Int :=
  data.collateralBase * data.scalar / data.liabilityBase * SCALAR_7 / data.scalar

theorem OraclePrices.scalar_pos (prices : OraclePrices) : 0 < prices.scalar := by
  rw [prices.scalar_eq]
  exact Int.pow_pos (by decide)

/-- What an account is valued from. -/
theorem PoolSnapshot.positionData_some_iff {snapshot : PoolSnapshot} {account : String} {time : Nat} {data : PositionData} :
    snapshot.positionData account time = .ok (some data) ↔ ∃ positions reserves,
      snapshot.positions[account]? = some positions ∧ positions.isEmpty = false ∧
      snapshot.accruedReserves time = .ok reserves ∧
      calculatePositionData reserves snapshot.prices positions = .ok data := by
  unfold positionData
  cases snapshot.positions[account]? with
  | none => simp
  | some positions =>
    cases hempty : positions.isEmpty with
    | true => simp [hempty]
    | false => simp [hempty, bind_ok_iff, map_ok_iff]

/-- Where it is answered at all, a health factor is the floor of the quotient,
and so is what is made of it in 7 decimals. -/
theorem PositionData.normalized_ok {data : PositionData} {health normalized : Int} (hscalar : 0 < data.scalar)
    (hdebt : 0 < data.liabilityBase) (h : data.healthFactor = .ok (some health))
    (h' : mulFloor health SCALAR_7 data.scalar = .ok normalized) : normalized = data.normalizedHealth := by
  rw [healthFactor, if_neg (by omega), map_ok_iff] at h
  obtain ⟨_, hfloor, heq⟩ := h
  cases heq
  rw [divFloor_eq hdebt] at hfloor
  rw [mulFloor_eq hscalar] at h'
  rw [narrow_ok h', narrow_ok hfloor, normalizedHealth]

/-- Below one in 7 decimals, the debts weigh more than what is behind them. -/
theorem PositionData.lt_of_normalizedHealth {data : PositionData} (hscalar : 0 < data.scalar)
    (hdebt : 0 < data.liabilityBase) (h : data.normalizedHealth < SCALAR_7) : data.collateralBase < data.liabilityBase := by
  by_contra hle
  have hone : data.scalar ≤ data.collateralBase * data.scalar / data.liabilityBase := by
    rw [Int.le_ediv_iff_mul_le hdebt, mul_comm]
    exact mul_le_mul_of_nonneg_right (by omega) hscalar.le
  refine absurd h (not_lt.2 ?_)
  rw [normalizedHealth, Int.le_ediv_iff_mul_le hscalar, mul_comm SCALAR_7]
  exact mul_le_mul_of_nonneg_right hone SCALAR_7_pos.le

/-! ## The plan's names -/

/-- Each of the assets is one of the reserves that `held` has something of. -/
def AssetsOf (reserves : BTreeMap Nat Reserve) (held : BTreeMap Nat Int) (assets : List String) : Prop :=
  ∀ asset ∈ assets, ∃ (index : Nat) (amount : Int) (reserve : Reserve), held[index]? = some amount ∧ amount ≠ 0 ∧
    reserves[index]? = some reserve ∧ reserve.asset = asset

/-- A plan takes what the borrower holds for what the borrower owes. -/
structure OwnPlan (reserves : BTreeMap Nat Reserve) (positions : Positions) (maxPositions : Nat) (plan : LiquidationPlan) :
    Prop where
  lot : plan.lot ≠ [] ∧ AssetsOf reserves positions.collateral plan.lot
  bid : plan.bid ≠ [] ∧ AssetsOf reserves positions.liabilities plan.bid
  capped : plan.lot.length + plan.bid.length ≤ max maxPositions 2

section Values

variable {value : Nat × Int → Except MathError PositionValue} {reserves : BTreeMap Nat Reserve} {prices : OraclePrices}
  {held : BTreeMap Nat Int} {values : List PositionValue}

theorem Valued.mem {entries : List (Nat × Int)} (h : Valued value entries values) :
    ∀ found ∈ values, ∃ entry ∈ entries, entry.2 ≠ 0 ∧ value entry = .ok found := by
  have hkept : ∀ found ∈ values, ∃ entry ∈ entries.filter (fun entry => entry.2 ≠ 0), value entry = .ok found := by
    unfold Valued at h
    generalize entries.filter (fun entry => entry.2 ≠ 0) = kept at h ⊢
    induction h with
    | nil => exact fun _ hfound => absurd hfound List.not_mem_nil
    | cons hhead _ ih =>
      intro found hfound
      rcases List.mem_cons.1 hfound with rfl | hfound
      · exact ⟨_, List.mem_cons_self, hhead⟩
      · obtain ⟨entry, hentry, hvalue⟩ := ih found hfound
        exact ⟨entry, List.mem_cons_of_mem _ hentry, hvalue⟩
  intro found hfound
  obtain ⟨entry, hentry, hvalue⟩ := hkept found hfound
  rw [List.mem_filter, decide_eq_true_eq] at hentry
  exact ⟨entry, hentry.1, hentry.2, hvalue⟩

/-- The assets of a prefix of the values are of reserves with something held. -/
theorem Valued.assetsOf (hasset : ∀ entry found, value entry = .ok found →
      ∃ reserve, reserves[entry.1]? = some reserve ∧ reserve.asset = found.asset)
    (h : Valued value held.toList values) {assets : List String}
    (hassets : assets <+: (values.insertionSort LargestFirst).map (·.asset)) : AssetsOf reserves held assets := by
  intro asset hmem
  obtain ⟨found, hfound, rfl⟩ := List.mem_map.1 (hassets.subset hmem)
  obtain ⟨⟨index, amount⟩, hentry, hne, hvalue⟩ := h.mem found ((List.mem_insertionSort LargestFirst).1 hfound)
  obtain ⟨reserve, hreserve, hasset⟩ := hasset _ _ hvalue
  exact ⟨index, amount, reserve, Std.ExtTreeMap.mem_toList_iff_getElem?_eq_some.1 hentry, hne, hreserve, hasset⟩

theorem collateralValue_asset (entry : Nat × Int) (found : PositionValue)
    (h : collateralValue reserves prices entry = .ok found) :
    ∃ reserve, reserves[entry.1]? = some reserve ∧ reserve.asset = found.asset := by
  simp only [collateralValue, bind_ok_iff, pure_ok_iff] at h
  obtain ⟨reserve, hreserve, _, -, _, -, _, -, _, -, _, -, rfl⟩ := h
  exact ⟨reserve, reserveAt_ok_iff.1 hreserve, rfl⟩

theorem liabilityValue_asset (entry : Nat × Int) (found : PositionValue)
    (h : liabilityValue reserves prices entry = .ok found) :
    ∃ reserve, reserves[entry.1]? = some reserve ∧ reserve.asset = found.asset := by
  simp only [liabilityValue, bind_ok_iff, pure_ok_iff] at h
  obtain ⟨reserve, hreserve, _, -, _, -, _, -, _, -, _, -, rfl⟩ := h
  exact ⟨reserve, reserveAt_ok_iff.1 hreserve, rfl⟩

end Values

/-! ## Judging -/

namespace AuctioneerConfig

variable {c : AuctioneerConfig} {snapshot : FullSnapshot} {reserves : BTreeMap Nat Reserve} {valuedAt : Nat}
  {account : String} {data : PositionData} {decision : Decision}

/-- The auction would close something: the debts at the target weigh more than
the collateral. -/
def Closable (c : AuctioneerConfig) (data : PositionData) : Prop :=
  data.collateralBase < data.liabilityBase * c.targetHealthFactor / SCALAR_7

/-- The five ways a borrower is judged, each with the numbers it is judged by. -/
inductive Judged (c : AuctioneerConfig) (reserves : BTreeMap Nat Reserve) (positions : Positions) (maxPositions : Nat)
    (data : PositionData) : Decision → Prop
  | noLiabilities : data.liabilityBase = 0 → Judged c reserves positions maxPositions data (.skip .noLiabilities)
  | badDebt : 0 < data.liabilityBase → data.collateralRaw = 0 → Judged c reserves positions maxPositions data .badDebt
  | healthy : 0 < data.liabilityBase → data.collateralRaw ≠ 0 → c.liquidationHealthFactor < data.normalizedHealth →
    Judged c reserves positions maxPositions data (.skip .healthy)
  | noPlan : 0 < data.liabilityBase → data.collateralRaw ≠ 0 → data.normalizedHealth ≤ c.liquidationHealthFactor →
    ¬c.Closable data → Judged c reserves positions maxPositions data (.skip .noPlan)
  | liquidate {plan : LiquidationPlan} : 0 < data.liabilityBase → data.collateralRaw ≠ 0 →
    data.normalizedHealth ≤ c.liquidationHealthFactor → c.Closable data → OwnPlan reserves positions maxPositions plan →
    Judged c reserves positions maxPositions data (.liquidate plan)

theorem plannedOrError_ok_iff {collateral liabilities : List PositionValue} {targetHealth : Int} {maxPositions : Nat}
    {answer : Option LiquidationPlan} :
    plannedOrError data collateral liabilities targetHealth maxPositions = .ok answer ↔
      planLiquidation data collateral liabilities targetHealth maxPositions = .ok answer := by
  unfold plannedOrError
  split
  · next heq => simp [heq]
  · next heq => simp [heq]
  · next heq => exact (planLiquidation_ne_outOfRange heq).elim

theorem insertionSort_ne_nil {values : List PositionValue} (h : values ≠ []) :
    values.insertionSort LargestFirst ≠ [] := by
  intro hnil
  have hlength := List.length_insertionSort LargestFirst values
  rw [hnil, List.length_nil] at hlength
  exact h (List.length_eq_zero_iff.1 hlength.symm)

/-- A plan for a borrower that owes and holds something: there is one exactly
where there is something to close, and it is of the borrower's own positions. -/
theorem plan_ok {positions : Positions} {prices : OraclePrices} {collateral liabilities : List PositionValue}
    {maxPositions : Nat} {answer : Option LiquidationPlan}
    (hdata : calculatePositionData reserves prices positions = .ok data) (hdebt : data.liabilityBase ≠ 0)
    (hraw : data.collateralRaw ≠ 0) (hvalues : positionValues reserves prices positions = .ok (collateral, liabilities))
    (hplan : plannedOrError data collateral liabilities c.targetHealthFactor maxPositions = .ok answer) :
    answer = none ∧ ¬c.Closable data ∨
      ∃ plan, answer = some plan ∧ c.Closable data ∧ OwnPlan reserves positions maxPositions plan := by
  obtain ⟨held, owed, hheld, howed, rfl, rfl⟩ := positionValues_ok_iff.1 hvalues
  obtain ⟨held', owed', hheld', howed', -, -, hsums⟩ := calculatePositionData_ok_iff.1 hdata
  obtain rfl := hheld.unique hheld'
  obtain rfl := howed.unique howed'
  have hheldne : held ≠ [] := by
    rintro rfl
    exact hraw (by rw [hsums]; rfl)
  have howedne : owed ≠ [] := by
    rintro rfl
    exact hdebt (by rw [hsums]; rfl)
  have hcases := @planLiquidation_cases (held.insertionSort LargestFirst) (owed.insertionSort LargestFirst) maxPositions data
    c.targetHealthFactor
  rw [plannedOrError_ok_iff.1 hplan] at hcases
  rcases hcases with ⟨hnone, hclosed⟩ | ⟨plan, hsome, hformed, hclosable⟩ | ⟨error, herror⟩
  · simp only [insertionSort_ne_nil hheldne, insertionSort_ne_nil howedne, false_or] at hclosed
    exact .inl ⟨Except.ok.inj hnone, not_lt.2 hclosed⟩
  · obtain ⟨hlotne, hlot⟩ := hformed.lot_isPrefix
    obtain ⟨hbidne, hbid⟩ := hformed.bid_isPrefix
    exact .inr ⟨plan, Except.ok.inj hsome, hclosable, ⟨hlotne, hheld.assetsOf collateralValue_asset hlot⟩,
      ⟨hbidne, howed.assetsOf liabilityValue_asset hbid⟩, hformed.capped⟩
  · cases herror

/-- A borrower is judged as its numbers say. -/
theorem judge_judged (hreserves : snapshot.accruedReserves valuedAt = .ok reserves)
    (hdata : snapshot.positionData account valuedAt = .ok (some data)) (hdebt : 0 ≤ data.liabilityBase)
    (h : c.judge snapshot reserves valuedAt account = .ok decision) :
    ∃ positions, snapshot.positions[account]? = some positions ∧
      Judged c reserves positions snapshot.poolInstance.config.maxPositions data decision := by
  obtain ⟨positions, reserves', hpositions, -, hreserves', hvalued⟩ := PoolSnapshot.positionData_some_iff.1 hdata
  obtain rfl := Except.ok.inj (hreserves.symm.trans hreserves')
  refine ⟨positions, hpositions, ?_⟩
  have hscalar : 0 < data.scalar := by
    obtain ⟨_, _, -, -, -, -, rfl⟩ := calculatePositionData_ok_iff.1 hvalued
    exact snapshot.prices.scalar_pos
  unfold judge at h
  obtain ⟨answer, hanswer, h⟩ := bind_ok_iff.1 h
  rw [mapError_ok_iff, hdata] at hanswer
  cases hanswer
  dsimp only at h
  split at h
  · next hbad =>
    cases h
    exact .badDebt hbad.1 hbad.2
  next hbad =>
  obtain ⟨health, hhealth, h⟩ := bind_ok_iff.1 h
  rw [mapError_ok_iff] at hhealth
  cases health with
  | none =>
    cases h
    refine .noLiabilities ?_
    by_contra hne
    rw [PositionData.healthFactor, if_neg hne, map_ok_iff] at hhealth
    obtain ⟨_, -, hsome⟩ := hhealth
    cases hsome
  | some health =>
    have hne : data.liabilityBase ≠ 0 := by
      intro hzero
      rw [PositionData.healthFactor, if_pos hzero] at hhealth
      cases hhealth
    have hpos : 0 < data.liabilityBase := by omega
    have hraw : data.collateralRaw ≠ 0 := fun hzero => hbad ⟨hpos, hzero⟩
    obtain ⟨normalized, hnormalized, h⟩ := bind_ok_iff.1 h
    rw [mapError_ok_iff] at hnormalized
    obtain rfl := data.normalized_ok hscalar hpos hhealth hnormalized
    split at h
    · next hhealthy =>
      cases h
      exact .healthy hpos hraw hhealthy
    next hunhealthy =>
    have hlow : data.normalizedHealth ≤ c.liquidationHealthFactor := not_lt.1 hunhealthy
    rw [hpositions] at h
    obtain ⟨⟨collateral, liabilities⟩, hvalues, h⟩ := bind_ok_iff.1 h
    obtain ⟨answer, hanswer, h⟩ := bind_ok_iff.1 h
    rw [mapError_ok_iff] at hvalues hanswer
    rcases plan_ok hvalued hne hraw hvalues hanswer with ⟨rfl, hclosed⟩ | ⟨plan, rfl, hclosable, hown⟩
    · cases h
      exact .noPlan hpos hraw hlow hclosed
    · cases h
      exact .liquidate hpos hraw hlow hclosable hown

end AuctioneerConfig

/-! ## Sound snapshots -/

/-- What a pool's entries promise of themselves. -/
structure PoolSnapshot.Sound (snapshot : PoolSnapshot) : Prop where
  bstopRate : (snapshot.bstopRate : Int) < SCALAR_7
  accruable : ∀ (index : Nat) (reserve : Reserve), snapshot.reserves[index]? = some reserve → reserve.Accruable
  cFactor : ∀ (index : Nat) (reserve : Reserve), snapshot.reserves[index]? = some reserve →
    (reserve.config.cFactor : Int) ≤ SCALAR_7
  collateral : ∀ (account : String) (positions : Positions), snapshot.positions[account]? = some positions →
    ∀ (index : Nat) (amount : Int), positions.collateral[index]? = some amount → 0 ≤ amount
  liabilities : ∀ (account : String) (positions : Positions), snapshot.positions[account]? = some positions →
    ∀ index, 0 ≤ positions.liabilities.getD index 0

theorem Reserve.accrue_config {r r' : Reserve} {bstopRate now : Nat} (h : r.accrue bstopRate now = .ok r') :
    r'.config = r.config := by
  simp only [accrue] at h
  split_ifs at h with hsame hbefore hempty
  · obtain rfl := pure_ok_iff.1 h
    rfl
  · cases h
  · cases h
  · obtain rfl := pure_ok_iff.1 h
    rfl
  obtain ⟨curUtil, -, h⟩ := bind_ok_iff.1 h
  split at h
  · obtain rfl := pure_ok_iff.1 h
    rfl
  simp only [accrueInterest, bind_ok_iff] at h
  obtain ⟨⟨accrual, irMod⟩, -, supply, -, liabilities, -, dRate, -, total, -, accrued, -, h⟩ := h
  dsimp only at h
  split at h
  · simp only [bind_ok_iff] at h
    obtain ⟨credit, -, backstop, -, sum, -, after, -, bRate, -, h⟩ := h
    obtain rfl := pure_ok_iff.1 h
    rfl
  · obtain rfl := pure_ok_iff.1 h
    rfl

/-- An accrued reserve is the one stored under its index, accrued. -/
theorem PoolSnapshot.accruedReserves_from {snapshot : PoolSnapshot} {time index : Nat} {accrued : BTreeMap Nat Reserve}
    (h : snapshot.accruedReserves time = .ok accrued) {r : Reserve} (hr : accrued[index]? = some r) :
    ∃ reserve, snapshot.reserves[index]? = some reserve ∧
      reserve.accrue snapshot.bstopRate (snapshot.valuedAt time) = .ok r := by
  unfold accruedReserves at h
  have hkept := foldlM_inv (fun rest acc => (∀ e ∈ rest, snapshot.reserves[e.1]? = some e.2) ∧
    ∀ (i : Nat) (r : Reserve), acc[i]? = some r → ∃ reserve, snapshot.reserves[i]? = some reserve ∧
      reserve.accrue snapshot.bstopRate (snapshot.valuedAt time) = .ok r) ?_ ⟨fun e he => ?_, fun i r hr => ?_⟩ h
  · exact hkept.2 index r hr
  · intro e rest acc acc' hinv hstep
    obtain ⟨r', haccrue, hacc'⟩ := bind_ok_iff.1 hstep
    obtain rfl := pure_ok_iff.1 hacc'
    refine ⟨fun e' he' => hinv.1 e' (List.mem_cons_of_mem _ he'), fun i r hr => ?_⟩
    rw [TreeMaps.getElem?_insert] at hr
    split at hr
    · next hi =>
      subst hi
      obtain rfl := Option.some.inj hr
      exact ⟨e.2, hinv.1 e List.mem_cons_self, haccrue⟩
    · exact hinv.2 i r hr
  · exact Std.ExtTreeMap.mem_toList_iff_getElem?_eq_some.1 he
  · simp at hr

section Sound

variable {snapshot : PoolSnapshot} {time : Nat} {reserves : BTreeMap Nat Reserve} {account : String} {data : PositionData}

theorem PoolSnapshot.Sound.accrued (h : snapshot.Sound) (hreserves : snapshot.accruedReserves time = .ok reserves)
    {index : Nat} {reserve : Reserve} (hreserve : reserves[index]? = some reserve) :
    reserve.Accruable ∧ (reserve.config.cFactor : Int) ≤ SCALAR_7 := by
  obtain ⟨stored, hstored, haccrue⟩ := accruedReserves_from hreserves hreserve
  refine ⟨(stored.accrue_accrues (h.accruable index stored hstored) h.bstopRate haccrue).1.accruable, ?_⟩
  rw [Reserve.accrue_config haccrue]
  exact h.cFactor index stored hstored

/-- A sound snapshot's debts weigh nothing less than nothing. -/
theorem PoolSnapshot.Sound.debt_nonneg (h : snapshot.Sound) (hdata : snapshot.positionData account time = .ok (some data)) :
    0 ≤ data.liabilityBase := by
  obtain ⟨positions, reserves, hpositions, -, hreserves, hvalued⟩ := positionData_some_iff.1 hdata
  exact calculatePositionData_liability_nonneg (fun index reserve hreserve => (h.accrued hreserves hreserve).1.dRate)
    (h.liabilities account positions hpositions) hvalued

end Sound

/-- **A decision is what the snapshot's numbers say.** An account without
positions has no debt to act on; of the others, the five decisions are told
apart by the debt, what is behind it, the health factor and what is left to
close, and a plan is of the borrower's own positions. Under a threshold below
one no borrower is liquidated whose collateral covers its debts, and with a
target of one or more none of those at or under it is left without a plan. -/
theorem decisions_by_numbers (c : AuctioneerConfig) (snapshot : FullSnapshot) (valuedAt : Nat)
    (reserves : BTreeMap Nat Reserve) (account : String) (decision : Decision) (hsound : snapshot.Sound)
    (hreserves : snapshot.accruedReserves valuedAt = .ok reserves)
    (h : c.judge snapshot reserves valuedAt account = .ok decision) :
    (snapshot.positionData account valuedAt = .ok none ∧ decision = .skip .noLiabilities) ∨
    ∃ data positions, snapshot.positionData account valuedAt = .ok (some data) ∧
      snapshot.positions[account]? = some positions ∧
      c.Judged reserves positions snapshot.poolInstance.config.maxPositions data decision ∧
      (c.liquidationHealthFactor < SCALAR_7 →
        (∀ plan, decision = .liquidate plan → data.collateralBase < data.liabilityBase) ∧
        (SCALAR_7 ≤ c.targetHealthFactor → decision ≠ .skip .noPlan)) := by
  have hfirst := h
  unfold AuctioneerConfig.judge at hfirst
  obtain ⟨answer, hanswer, hrest⟩ := bind_ok_iff.1 hfirst
  rw [mapError_ok_iff] at hanswer
  cases answer with
  | none =>
    cases hrest
    exact .inl ⟨hanswer, rfl⟩
  | some data =>
    obtain ⟨positions, hpositions, hjudged⟩ :=
      AuctioneerConfig.judge_judged hreserves hanswer (hsound.debt_nonneg hanswer) h
    have hscalar : 0 < data.scalar := by
      obtain ⟨_, _, -, -, -, hvalued⟩ := PoolSnapshot.positionData_some_iff.1 hanswer
      obtain ⟨_, _, -, -, -, -, rfl⟩ := calculatePositionData_ok_iff.1 hvalued
      exact snapshot.prices.scalar_pos
    refine .inr ⟨data, positions, hanswer, hpositions, hjudged, fun hone => ⟨fun plan hplan => ?_, fun htarget hnoPlan => ?_⟩⟩
    · subst hplan
      cases hjudged with
      | liquidate hdebt hraw hlow hclosable hown => exact data.lt_of_normalizedHealth hscalar hdebt (by omega)
    · subst hnoPlan
      cases hjudged with
      | noPlan hdebt hraw hlow hclosed =>
        -- the target takes the debts no lower, and they already weigh more
        have hless := data.lt_of_normalizedHealth hscalar hdebt (by omega)
        refine hclosed (hless.trans_le ?_)
        rw [Int.le_ediv_iff_mul_le SCALAR_7_pos]
        exact mul_le_mul_of_nonneg_left htarget hdebt.le

def shortPositions : Positions where
  collateral := (∅ : BTreeMap Nat Int).insert 0 1000000000
  liabilities := (∅ : BTreeMap Nat Int).insert 1 7000000000

/-- The sample pool, with a borrower that owes 770 XLM on 105 USDC. -/
def shortSnapshot : FullSnapshot where
  ledger := 1000
  bstopRate := 0
  reserves := sampleReserves
  prices := samplePrices
  positions := (∅ : BTreeMap String Positions).insert "borrower" shortPositions
  pool := "pool"
  poolInstance := ⟨"admin", "backstop", "token", "Pool", "oracle", 0, .active, 4, 0⟩
  assetIndex := sampleAssetIndex
  priceTimestamps := ∅

theorem shortSnapshot_sound : shortSnapshot.Sound where
  bstopRate := by decide
  accruable index reserve h := by
    rcases sampleReserves_cases h with ⟨-, rfl⟩ | ⟨-, rfl⟩
    all_goals exact ⟨by decide, by decide, by decide, by decide, by decide, by decide⟩
  cFactor index reserve h := by
    rcases sampleReserves_cases h with ⟨-, rfl⟩ | ⟨-, rfl⟩ <;> decide
  collateral account positions h index amount hamount := by
    simp only [shortSnapshot, TreeMaps.getElem?_insert] at h
    split at h
    · cases h
      simp only [shortPositions, TreeMaps.getElem?_insert] at hamount
      split at hamount
      · cases hamount
        decide
      · simp at hamount
    · simp at h
  liabilities account positions h index := by
    simp only [shortSnapshot, TreeMaps.getElem?_insert] at h
    split at h
    · cases h
      rw [shortPositions, TreeMaps.getD_insert]
      split
      · decide
      · simp
    · simp at h

/-- The borrower is under the default thresholds, and is judged on its numbers. -/
theorem decisions_by_numbers_short :
    ∃ decision, AuctioneerConfig.judge ⟨9980000, 10600000, ∅⟩ shortSnapshot sampleReserves 0 "borrower" = .ok decision ∧
      ∃ data positions, shortSnapshot.positionData "borrower" 0 = .ok (some data) ∧
        shortSnapshot.positions["borrower"]? = some positions ∧
        AuctioneerConfig.Judged ⟨9980000, 10600000, ∅⟩ sampleReserves positions 4 data decision := by
  have hok : (AuctioneerConfig.judge ⟨9980000, 10600000, ∅⟩ shortSnapshot sampleReserves 0 "borrower").isOk = true := by
    decide +kernel
  cases hjudge : AuctioneerConfig.judge ⟨9980000, 10600000, ∅⟩ shortSnapshot sampleReserves 0 "borrower" with
  | error error => rw [hjudge] at hok; cases hok
  | ok decision =>
    refine ⟨decision, rfl, ?_⟩
    rcases decisions_by_numbers ⟨9980000, 10600000, ∅⟩ shortSnapshot 0 sampleReserves "borrower" decision
      shortSnapshot_sound rfl hjudge with ⟨hnone, -⟩ | ⟨data, positions, hdata, hpositions, hjudged, -⟩
    · have hsome : (shortSnapshot.positionData "borrower" 0).toOption ≠ some none := by decide +kernel
      exact absurd (by rw [hnone]; rfl) hsome
    · exact ⟨data, positions, hdata, hpositions, hjudged⟩

/-! ## The batch -/

namespace AuctioneerConfig

variable {c : AuctioneerConfig} {pool : String} {accounts : List String} {tick : LedgerTick} {snapshot : FullSnapshot}
  {reserves : BTreeMap Nat Reserve} {valuedAt : Nat} {l l' : List (Entry DecideCall.Answer)} {account : String}
  {decision : Decision}

/-- The read of a borrower's row. -/
abbrev rowOf (pool account : String) : DecideCall := .auction pool account .userLiquidation

/-- What a batch reads: a snapshot of the borrowers that are not the bot's own,
then a row for each of them; nothing where there are none. -/
def reads (c : AuctioneerConfig) (pool : String) (accounts : List String) : List DecideCall :=
  if (c.pending pool accounts).isEmpty then []
  else .snapshot pool (c.pending pool accounts) :: (c.pending pool accounts).map (rowOf pool)

/-- What a decision rests on, beside the snapshot. -/
def Grounds (c : AuctioneerConfig) (pool : String) (snapshot : FullSnapshot) (reserves : BTreeMap Nat Reserve) (valuedAt : Nat)
    (l : List (Entry DecideCall.Answer)) (account : String) (decision : Decision) : Prop :=
  (∃ row, (⟨rowOf pool account, .ok (some row)⟩ : Entry DecideCall.Answer) ∈ l ∧ decision = .skip .auctionOpen) ∨
  (⟨rowOf pool account, .ok none⟩ : Entry DecideCall.Answer) ∈ l ∧
    c.judge snapshot reserves valuedAt account = .ok decision

/-- Why a borrower is without a decision: it has no open auction, and cannot be
judged. -/
def Unjudged (c : AuctioneerConfig) (pool : String) (snapshot : FullSnapshot) (reserves : BTreeMap Nat Reserve)
    (valuedAt : Nat) (l : List (Entry DecideCall.Answer)) (account : String) : Prop :=
  (⟨rowOf pool account, .ok none⟩ : Entry DecideCall.Answer) ∈ l ∧
    ∃ error, c.judge snapshot reserves valuedAt account = .error error

/-- The slots of some of a batch's accounts, filled from the record. -/
structure Filled (c : AuctioneerConfig) (pool : String) (snapshot : FullSnapshot) (reserves : BTreeMap Nat Reserve)
    (valuedAt : Nat) (accounts : List String) (l : List (Entry DecideCall.Answer)) (decisions : List (String × Decision)) :
    Prop where
  inOrder : (decisions.map (·.1)).Sublist accounts
  own : ∀ account ∈ accounts, c.isOwnAccount pool account = true → (account, .skip .ownAccount) ∈ decisions
  grounds : ∀ account decision, (account, decision) ∈ decisions →
    c.isOwnAccount pool account = true ∧ decision = .skip .ownAccount ∨
    c.isOwnAccount pool account = false ∧ c.Grounds pool snapshot reserves valuedAt l account decision
  complete : ∀ account ∈ accounts, (∃ decision, (account, decision) ∈ decisions) ∨
    c.isOwnAccount pool account = false ∧ c.Unjudged pool snapshot reserves valuedAt l account

theorem judge_ne_store {error : StoreError} : c.judge snapshot reserves valuedAt account ≠ .error (.store error) := by
  have hfrom : ∀ {ε α β : Type} {x : Except ε α} {wrap : ε → AuctioneerError} {f : α → Except AuctioneerError β},
      (∀ e, wrap e ≠ .store error) → (x.mapError wrap >>= f) = .error (.store error) →
      ∃ a, f a = .error (.store error) := by
    intro ε α β x wrap f hwrap h
    rcases bind_error_iff.1 h with h | ⟨a, -, h⟩
    · obtain ⟨e, -, he⟩ := mapError_error_iff.1 h
      exact absurd he (hwrap e)
    · exact ⟨a, h⟩
  intro h
  unfold judge at h
  obtain ⟨answer, h⟩ := hfrom (fun e => by simp) h
  cases answer with
  | none => cases h
  | some data =>
    dsimp only at h
    split at h
    · cases h
    obtain ⟨health, h⟩ := hfrom (fun e => by simp) h
    cases health with
    | none => cases h
    | some health =>
      obtain ⟨normalized, h⟩ := hfrom (fun e => by simp) h
      split at h
      · cases h
      split at h
      · cases h
      obtain ⟨values, h⟩ := hfrom (fun e => by simp) h
      obtain ⟨plan, h⟩ := hfrom (fun e => by simp) h
      cases plan <;> cases h

theorem Grounds.mono (h : c.Grounds pool snapshot reserves valuedAt l account decision) (hl : l ⊆ l') :
    c.Grounds pool snapshot reserves valuedAt l' account decision := by
  rcases h with ⟨row, hrow, hdecision⟩ | ⟨hrow, hjudge⟩
  · exact .inl ⟨row, hl hrow, hdecision⟩
  · exact .inr ⟨hl hrow, hjudge⟩

theorem Unjudged.mono (h : c.Unjudged pool snapshot reserves valuedAt l account) (hl : l ⊆ l') :
    c.Unjudged pool snapshot reserves valuedAt l' account := ⟨hl h.1, h.2⟩

theorem Filled.append {rest : List String} {first others : List (String × Decision)}
    (h : c.Filled pool snapshot reserves valuedAt [account] l first)
    (h' : c.Filled pool snapshot reserves valuedAt rest l' others) (hl : l ⊆ l') :
    c.Filled pool snapshot reserves valuedAt (account :: rest) l' (first ++ others) where
  inOrder := by
    rw [List.map_append]
    exact h.inOrder.append h'.inOrder
  own a ha hown := by
    rcases List.mem_cons.1 ha with rfl | ha
    · exact List.mem_append_left _ (h.own a List.mem_cons_self hown)
    · exact List.mem_append_right _ (h'.own a ha hown)
  grounds a d hd := by
    rcases List.mem_append.1 hd with hd | hd
    · exact (h.grounds a d hd).imp_right fun hground => ⟨hground.1, hground.2.mono hl⟩
    · exact h'.grounds a d hd
  complete a ha := by
    rcases List.mem_cons.1 ha with rfl | ha
    · rcases h.complete a List.mem_cons_self with ⟨d, hd⟩ | ⟨hown, hunjudged⟩
      · exact .inl ⟨d, List.mem_append_left _ hd⟩
      · exact .inr ⟨hown, hunjudged.mono hl⟩
    · exact (h'.complete a ha).imp_left fun ⟨d, hd⟩ => ⟨d, List.mem_append_right _ hd⟩

/-- How filling slots ends: with each of them accounted for, or with the row
that could not be read. -/
def Filling (c : AuctioneerConfig) (pool : String) (snapshot : FullSnapshot) (reserves : BTreeMap Nat Reserve)
    (valuedAt : Nat) (accounts : List String) (l l' : List (Entry DecideCall.Answer)) :
    Except AuctioneerError (List (String × Decision)) → Prop
  | .ok decisions => l <+: l' ∧ l'.map (·.1) = l.map (·.1) ++ (c.pending pool accounts).map (rowOf pool) ∧
    c.Filled pool snapshot reserves valuedAt accounts l' decisions
  | .error (.store error) => ∃ account, l'.getLast? = some ⟨rowOf pool account, .error error⟩
  | .error _ => False

theorem slot_keeps {all : List DecideCall} (hall : l.map (·.1) ++ (c.pending pool [account]).map (rowOf pool) <+: all) :
    Keeps (fun _ _ _ => True) (fun l o => l.map (·.1) ++ [o] <+: all)
      (fun l' r => c.Filling pool snapshot reserves valuedAt [account] l l' (r.map Option.toList)) l
      (c.slot pool snapshot reserves valuedAt account) := by
  unfold slot
  split
  · next hown =>
    refine ⟨List.prefix_rfl, by simp [pending, hown], List.Sublist.refl _, fun a ha _ => ?_, fun a d hd => ?_, fun a ha => ?_⟩
    · rw [List.mem_singleton.1 ha]
      exact List.mem_singleton_self _
    · obtain ⟨rfl, rfl⟩ := Prod.mk.inj (List.mem_singleton.1 hd)
      exact .inl ⟨hown, rfl⟩
    · rw [List.mem_singleton.1 ha]
      exact .inl ⟨_, List.mem_singleton_self _⟩
  next hother =>
  have hown : c.isOwnAccount pool account = false := by simpa using hother
  have hpending : c.pending pool [account] = [account] := by simp [pending, hown]
  rw [hpending] at hall
  have hcalls : ∀ answer, (l ++ [(⟨rowOf pool account, answer⟩ : Entry DecideCall.Answer)]).map (·.1) =
      l.map (·.1) ++ (c.pending pool [account]).map (rowOf pool) := by
    intro answer
    rw [hpending, List.map_append]
    rfl
  have hmem : ∀ answer, (⟨rowOf pool account, answer⟩ : Entry DecideCall.Answer) ∈ l ++ [⟨rowOf pool account, answer⟩] :=
    fun answer => List.mem_append_right _ (List.mem_singleton_self _)
  have hone : ∀ answer decision,
      c.Grounds pool snapshot reserves valuedAt (l ++ [⟨rowOf pool account, answer⟩]) account decision →
      c.Filling pool snapshot reserves valuedAt [account] l (l ++ [⟨rowOf pool account, answer⟩])
        (.ok [(account, decision)]) := by
    intro answer decision hgrounds
    refine ⟨List.prefix_append _ _, hcalls answer, List.Sublist.refl _, fun a ha howned => ?_, fun a d hd => ?_, fun a ha => ?_⟩
    · rw [List.mem_singleton.1 ha, hown] at howned
      cases howned
    · obtain ⟨rfl, rfl⟩ := Prod.mk.inj (List.mem_singleton.1 hd)
      exact .inr ⟨hown, hgrounds⟩
    · rw [List.mem_singleton.1 ha]
      exact .inl ⟨_, List.mem_singleton_self _⟩
  have hstop : ∀ answer error, c.judge snapshot reserves valuedAt account = .error error → answer = .ok none →
      c.Filling pool snapshot reserves valuedAt [account] l (l ++ [⟨rowOf pool account, answer⟩]) (.ok []) := by
    intro answer error hjudge hanswer
    subst hanswer
    refine ⟨List.prefix_append _ _, hcalls _, List.nil_sublist _, fun a ha howned => ?_, fun a d hd => ?_, fun a ha => ?_⟩
    · rw [List.mem_singleton.1 ha, hown] at howned
      cases howned
    · cases hd
    · rw [List.mem_singleton.1 ha]
      exact .inr ⟨hown, hmem _, error, hjudge⟩
  unfold decideOne
  rw [if_neg (by simp [hown])]
  refine ⟨hall, fun answer _ => ?_⟩
  cases answer with
  | error error =>
    refine ⟨account, ?_⟩
    rw [List.getLast?_append_of_ne_nil _ (List.cons_ne_nil _ _)]
    rfl
  | ok row =>
    cases row with
    | some row => exact hone _ _ (.inl ⟨row, hmem _, rfl⟩)
    | none =>
      cases hjudge : c.judge snapshot reserves valuedAt account with
      | ok decision =>
        show c.Filling pool snapshot reserves valuedAt [account] l _ (.ok [(account, decision)])
        exact hone _ _ (.inr ⟨hmem _, hjudge⟩)
      | error error =>
        cases error with
        | store error => exact (judge_ne_store hjudge).elim
        | chain error => exact hstop _ _ hjudge rfl
        | math error => exact hstop _ _ hjudge rfl
        | queue error => exact hstop _ _ hjudge rfl

theorem slots_keeps {all : List DecideCall} (hall : l.map (·.1) ++ (c.pending pool accounts).map (rowOf pool) <+: all) :
    Keeps (fun _ _ _ => True) (fun l o => l.map (·.1) ++ [o] <+: all)
      (c.Filling pool snapshot reserves valuedAt accounts l) l (c.slots pool snapshot reserves valuedAt accounts) := by
  induction accounts generalizing l with
  | nil =>
    refine ⟨List.prefix_rfl, by simp [pending], List.Sublist.refl _, ?_, ?_, ?_⟩
    all_goals simp
  | cons account rest ih =>
    have hsplit : c.pending pool (account :: rest) = c.pending pool [account] ++ c.pending pool rest := by
      rw [pending, pending, pending, ← List.filter_append]
      rfl
    rw [hsplit, List.map_append, ← List.append_assoc] at hall
    unfold slots
    refine (slot_keeps ((List.prefix_append _ _).trans hall)).bind (fun mid found hfound => ?_) fun mid error herror => ?_
    · obtain ⟨hmid, hcalls, hfilled⟩ := hfound
      rw [← hcalls] at hall
      refine (ih hall).bind (fun l' others hothers => ?_) fun l' error herror => ?_
      · obtain ⟨hl', hcalls', hfilled'⟩ := hothers
        refine ⟨hmid.trans hl', ?_, hfilled.append hfilled' hl'.subset⟩
        rw [hcalls', hcalls, hsplit, List.map_append, List.append_assoc]
      · cases error with
        | store error => exact herror
        | chain error => exact herror
        | math error => exact herror
        | queue error => exact herror
    · cases error with
      | store error => exact herror
      | chain error => exact herror
      | math error => exact herror
      | queue error => exact herror

/-- How a batch ends. With decisions: every call was made, each decision rests
on the one snapshot and on its borrower's row, and whoever has none could not be
judged on them. By the store: at the row that could not be read. Otherwise: at
the snapshot, no row read. -/
def Ended (c : AuctioneerConfig) (pool : String) (accounts : List String) (tick : LedgerTick)
    (l : List (Entry DecideCall.Answer)) : Except AuctioneerError (List (String × Decision)) → Prop
  | .ok decisions => l.map (·.1) = c.reads pool accounts ∧
    (c.pending pool accounts = [] ∧ decisions = accounts.map (fun account => (account, .skip .ownAccount)) ∨
    ∃ snapshot reserves, (⟨.snapshot pool (c.pending pool accounts), .ok snapshot⟩ : Entry DecideCall.Answer) ∈ l ∧
      snapshot.accruedReserves (snapshot.valuedAt tick.closeTime) = .ok reserves ∧
      c.Filled pool snapshot reserves (snapshot.valuedAt tick.closeTime) accounts l decisions)
  | .error (.store error) => ∃ account, l.getLast? = some ⟨rowOf pool account, .error error⟩
  | .error _ => l.map (·.1) = [.snapshot pool (c.pending pool accounts)]

theorem decide_keeps (c : AuctioneerConfig) (pool : String) (accounts : List String) (tick : LedgerTick) :
    Keeps (fun _ _ _ => True) (fun l o => l.map (·.1) ++ [o] <+: c.reads pool accounts) (c.Ended pool accounts tick) []
      (c.decide pool accounts tick) := by
  unfold decide
  split
  · next hempty =>
    obtain rfl := List.isEmpty_iff.1 hempty
    exact ⟨rfl, .inl ⟨rfl, rfl⟩⟩
  split
  · next hown =>
    have hnone := List.isEmpty_iff.1 hown
    exact ⟨by simp [reads, hnone], .inl ⟨hnone, rfl⟩⟩
  next hsome =>
  have hreads : c.reads pool accounts = .snapshot pool (c.pending pool accounts) ::
      (c.pending pool accounts).map (rowOf pool) := by
    rw [reads, if_neg hsome]
  rw [hreads]
  refine Keeps.bind_call (by simp) fun answer _ => ?_
  refine Keeps.bind_lift (fun snapshot hsnapshot => ?_) fun error herror => ?_
  · rw [mapError_ok_iff] at hsnapshot
    subst hsnapshot
    refine Keeps.bind_lift (fun reserves hreserves => ?_) fun error herror => ?_
    · rw [mapError_ok_iff] at hreserves
      refine (slots_keeps (by simp)).mono (fun _ _ h => h) fun l' r h => ?_
      cases r with
      | ok decisions =>
        obtain ⟨hl', hcalls, hfilled⟩ := h
        refine ⟨by rw [hcalls, hreads]; rfl, .inr ⟨snapshot, reserves, ?_, hreserves, hfilled⟩⟩
        exact hl'.subset (List.mem_append_right _ (List.mem_singleton_self _))
      | error error =>
        cases error with
        | store error => exact h
        | chain error => exact h.elim
        | math error => exact h.elim
        | queue error => exact h.elim
    · obtain ⟨error, -, rfl⟩ := mapError_error_iff.1 herror
      rfl
  · obtain ⟨error, -, rfl⟩ := mapError_error_iff.1 herror
    rfl

end AuctioneerConfig

/-- **A batch is decided on one snapshot.** Its calls are a snapshot of the
borrowers that are not the bot's own and a row for each of them, in the batch's
order, and none at all for a batch of own accounts; the decisions keep the order,
and one borrower's failure costs no other's. -/
theorem decide_one_snapshot (c : AuctioneerConfig) (pool : String) (accounts : List String) (tick : LedgerTick) :
    Keeps (fun _ _ _ => True) (fun l o => l.map (·.1) ++ [o] <+: c.reads pool accounts) (c.Ended pool accounts tick) []
      (c.decide pool accounts tick) :=
  c.decide_keeps pool accounts tick

end BlendLiquidator
