/-
One round of supply closes the shortfall it was computed for.

`supply_for` inverts the primary's valuation: the shortfall in base goes back
through the price and the collateral factor, both rounded up, and two units
are added for the b-token round trip. Supplied on top of an amount already
projected, each of the floors on the way forward keeps what the ceiling on the
way back asked for (`Reserve.heldBase_supply`): the mint and the redemption
lose less than one b-token's worth and one unit, and at a b-rate of at most
two that is what the two units cover.

The rest of the projection is the same with either supply, so its collateral
rises by the shortfall at least and its liabilities stand (`project_widened`).
-/
import Mathlib.Tactic.Ring
import BlendLiquidator.Effects
import BlendLiquidator.SupplyRoom

namespace BlendLiquidator

open Results IntDiv

/-! ## The round trip -/

/-- Underlying minted to b-tokens, rounded down. -/
def Reserve.minted (r : Reserve) (amount : Int) : Int := amount * SCALAR_12 / r.data.bRate

/-- A supply raised by `more` is worth at least `more - 2` more, at a b-rate
of at most two. -/
theorem Reserve.worth_supply {r : Reserve} (hpos : 0 < r.data.bRate) (hrate : r.data.bRate ≤ 2 * SCALAR_12)
    (held supply more : Int) :
    r.worth (held + r.minted supply) + (more - SUPPLY_ROUNDING_ALLOWANCE) ≤
      r.worth (held + r.minted (supply + more)) := by
  refine (Int.le_ediv_iff_mul_le SCALAR_12_pos).2 ?_
  have hbefore : r.worth (held + r.minted supply) * SCALAR_12 ≤ (held + r.minted supply) * r.data.bRate :=
    ediv_mul_le' SCALAR_12_pos
  have hless : r.minted supply * r.data.bRate ≤ supply * SCALAR_12 := ediv_mul_le' hpos
  have hmore : (supply + more) * SCALAR_12 < (r.minted (supply + more) + 1) * r.data.bRate :=
    Int.lt_ediv_add_one_mul_self _ hpos
  simp only [Int.add_mul, Int.sub_mul, Int.one_mul, SUPPLY_ROUNDING_ALLOWANCE] at hbefore hmore ⊢
  omega

/-- The amount `supply_for` answers for a shortfall, at a price. -/
def Reserve.supplyFor (r : Reserve) (price shortfall : Int) : Int :=
  ceilDiv (ceilDiv (shortfall * r.scalar) price * SCALAR_7) r.config.cFactor + SUPPLY_ROUNDING_ALLOWANCE

/-- **The inversion holds.** Supplying what was asked for on top raises the
base by the shortfall at least. -/
theorem Reserve.heldBase_supply {r : Reserve} (hpos : 0 < r.data.bRate) (hrate : r.data.bRate ≤ 2 * SCALAR_12)
    (hfactor : 0 < r.config.cFactor) {price : Int} (hprice : 0 < price) (held supply shortfall : Int) :
    r.heldBase price (held + r.minted supply) + shortfall ≤
      r.heldBase price (held + r.minted (supply + r.supplyFor price shortfall)) := by
  have hc : (0 : Int) < r.config.cFactor := by omega
  let effective := ceilDiv (shortfall * r.scalar) price
  let underlying := ceilDiv (effective * SCALAR_7) r.config.cFactor
  have heffective : shortfall * r.scalar ≤ effective * price := le_ceilDiv_mul hprice
  have hunderlying : effective * SCALAR_7 ≤ underlying * r.config.cFactor := le_ceilDiv_mul hc
  have hworth := Reserve.worth_supply hpos hrate held supply (r.supplyFor price shortfall)
  have hsupply : r.supplyFor price shortfall - SUPPLY_ROUNDING_ALLOWANCE = underlying := by
    show underlying + SUPPLY_ROUNDING_ALLOWANCE - SUPPLY_ROUNDING_ALLOWANCE = underlying
    omega
  rw [hsupply] at hworth
  -- Each floor on the way forward keeps what was added before it.
  have hparts : r.worth (held + r.minted supply) * r.config.cFactor / SCALAR_7 + effective ≤
      r.worth (held + r.minted (supply + r.supplyFor price shortfall)) * r.config.cFactor / SCALAR_7 := by
    refine (Int.le_ediv_iff_mul_le SCALAR_7_pos).2 ?_
    have hfloor : r.worth (held + r.minted supply) * r.config.cFactor / SCALAR_7 * SCALAR_7 ≤
        r.worth (held + r.minted supply) * r.config.cFactor := ediv_mul_le' SCALAR_7_pos
    have hscaled := Int.mul_le_mul_of_nonneg_right hworth hc.le
    rw [Int.add_mul] at hscaled ⊢
    omega
  refine (Int.le_ediv_iff_mul_le r.scalar_pos).2 ?_
  have hfloor : r.heldBase price (held + r.minted supply) * r.scalar ≤
      price * (r.worth (held + r.minted supply) * r.config.cFactor / SCALAR_7) := ediv_mul_le' r.scalar_pos
  have hscaled := Int.mul_le_mul_of_nonneg_left hparts hprice.le
  rw [Int.mul_add, Int.mul_comm price effective] at hscaled
  rw [Int.add_mul]
  omega

/-! ## Health from the amount wanted -/

/-- The effective collateral the floor and the minimum ask for. -/
def wantedBase (terms : FillTerms) (data : PositionData) : Int :=
  max (ceilDiv (data.liabilityBase * terms.healthFloor) SCALAR_7) terms.minCollateral

theorem PositionData.hfAtLeast_of_wanted {d : PositionData} {min : Int} (h0 : 0 ≤ d.liabilityBase)
    (hscalar : 0 ≤ d.scalar) (h : ceilDiv (d.liabilityBase * min) SCALAR_7 ≤ d.collateralBase) :
    d.HfAtLeast min := by
  by_cases hz : d.liabilityBase = 0
  · exact .inl hz
  right
  have hpos : 0 < d.liabilityBase := by omega
  have hcover : d.liabilityBase * min ≤ d.collateralBase * SCALAR_7 := (ceilDiv_le_iff SCALAR_7_pos).1 h
  refine (Int.le_ediv_iff_mul_le hpos).2 (le_of_mul_le_mul_right ?_ SCALAR_7_pos)
  calc d.scalar * min / SCALAR_7 * d.liabilityBase * SCALAR_7
      = d.scalar * min / SCALAR_7 * SCALAR_7 * d.liabilityBase := by ring
    _ ≤ d.scalar * min * d.liabilityBase := Int.mul_le_mul_of_nonneg_right (ediv_mul_le' SCALAR_7_pos) h0
    _ = d.scalar * (d.liabilityBase * min) := by ring
    _ ≤ d.scalar * (d.collateralBase * SCALAR_7) := Int.mul_le_mul_of_nonneg_left hcover hscalar
    _ = d.collateralBase * d.scalar * SCALAR_7 := by ring

theorem healthy_okOr {terms : FillTerms} {projection : Projection} (h0 : 0 ≤ projection.data.liabilityBase) :
    OkOr .overflow (healthy terms projection) := by
  unfold healthy
  split
  · exact .inl ⟨_, rfl⟩
  refine OkOr.bind ?_ fun _ _ => .inl ⟨_, rfl⟩
  unfold PositionData.isHfUnder PositionData.healthFactor
  split
  · exact .inl ⟨_, rfl⟩
  next hz =>
  have hpos : 0 < projection.data.liabilityBase := by omega
  have hquotient : OkOr .overflow
      (divFloor projection.data.collateralBase projection.data.liabilityBase projection.data.scalar) :=
    mulDiv_okOr hpos
  rcases hquotient with ⟨q, hq⟩ | hq
  · rw [hq]
    refine OkOr.bind (.inl ⟨some q, rfl⟩) fun found hfound => ?_
    cases hfound
    exact OkOr.bind (mulDiv_okOr SCALAR_7_pos) fun _ _ => .inl ⟨_, rfl⟩
  · rw [hq]
    exact .inr rfl

/-- A projection with the collateral wanted is never found short. -/
theorem healthy_of_wanted {terms : FillTerms} {projection : Projection} (h0 : 0 ≤ projection.data.liabilityBase)
    (hscalar : 0 ≤ projection.data.scalar) (h : wantedBase terms projection.data ≤ projection.data.collateralBase) :
    healthy terms projection ≠ .ok false := by
  intro hshort
  have hhf : projection.data.HfAtLeast terms.healthFloor :=
    PositionData.hfAtLeast_of_wanted h0 hscalar ((le_max_left _ _).trans h)
  have hmin : terms.minCollateral ≤ projection.data.collateralBase := (le_max_right _ _).trans h
  simp only [healthy] at hshort
  split at hshort
  · cases hshort
  simp only [bind_ok_iff, pure_ok_iff, Bool.and_eq_false_iff, Bool.not_eq_false', decide_eq_false_iff_not] at hshort
  obtain ⟨under, hunder, hcase⟩ := hshort
  rcases hcase with rfl | hless
  · exact hhf.not_isHfUnder h0 hunder
  · omega

/-! ## The projection with a wider supply -/

/-- The primary the operator supplies, where a supply helps: it has a
collateral factor, and its b-rate is at most two. -/
structure Suppliable (terms : FillTerms) (inputs : FillInputs) (index : Nat) (primary : Reserve) : Prop where
  found : reserveFor inputs terms.primaryAsset = .ok (index, primary)
  factor_pos : 0 < primary.config.cFactor
  rate_pos : 0 < primary.data.bRate
  rate_le : primary.data.bRate ≤ 2 * SCALAR_12

/-- The default path, where a fill runs it, leaves the primary as read. -/
def DefaultKeeps (inputs : FillInputs) (ledger : Nat) (percent : FillPercent) (index : Nat) (primary : Reserve) :
    Prop :=
  ∀ scaled reserves, scaleAuction inputs.auction ledger percent.get = .ok scaled →
    valuationReserves inputs scaled = .ok reserves → reserves[index]? = some primary

/-- A supply within the wallet mints what its amount is worth, to the primary
alone. -/
theorem supplyPrimary_minted {terms : FillTerms} {inputs : FillInputs} {index : Nat} {primary : Reserve}
    (hprimary : Suppliable terms inputs index primary) {w w' : Working} {supply : Int} (h0 : 0 ≤ supply)
    (hleft : supply ≤ primaryLeft terms w) (h : supplyPrimary terms inputs w supply = .ok w') :
    w'.positions.liabilities = w.positions.liabilities ∧
      w'.positions.collateral.getD index 0 = w.positions.collateral.getD index 0 + primary.minted supply ∧
      ∀ i, index ≠ i → w'.positions.collateral.getD i 0 = w.positions.collateral.getD i 0 := by
  simp only [supplyPrimary, min_eq_left hleft] at h
  split at h
  case isFalse hzero =>
    obtain rfl : supply = 0 := by omega
    rw [pure_ok_iff] at h
    subst h
    simp [Reserve.minted]
  simp only [bind_ok_iff, hprimary.found, Except.ok.injEq, exists_eq_left'] at h
  obtain ⟨bTokens, hb, h⟩ := h
  rw [Reserve.toBTokenDown, divFloor_eq hprimary.rate_pos] at hb
  have hb : bTokens = primary.minted supply := narrow_ok hb
  have hnonneg : 0 ≤ primary.minted supply :=
    Int.ediv_nonneg (Int.mul_nonneg h0 SCALAR_12_pos.le) hprimary.rate_pos.le
  split at h
  case isFalse hmint =>
    rw [pure_ok_iff] at h
    subst h
    exact ⟨rfl, by omega, fun _ _ => rfl⟩
  next hmint =>
  simp only [bind_ok_iff, pure_ok_iff] at h
  obtain ⟨collateral, hc, spend, -, rfl⟩ := h
  have hc := addTo_ok hc
  rw [if_neg (by omega)] at hc
  refine ⟨rfl, ?_, fun i hi => ?_⟩
  · dsimp only
    rw [hc, TreeMaps.getD_insert, if_pos rfl, hb]
  · dsimp only
    rw [hc, TreeMaps.getD_insert, if_neg hi]

theorem supplyPrimary_liabilities {terms : FillTerms} {inputs : FillInputs} {w w' : Working} {supply : Int}
    (h : supplyPrimary terms inputs w supply = .ok w') : w'.positions.liabilities = w.positions.liabilities := by
  simp only [supplyPrimary] at h
  split at h
  case isFalse => rw [← pure_ok_iff.1 h]
  simp only [bind_ok_iff] at h
  obtain ⟨_, -, _, -, h⟩ := h
  split at h
  case isFalse => rw [← pure_ok_iff.1 h]
  simp only [bind_ok_iff, pure_ok_iff] at h
  obtain ⟨_, -, _, -, rfl⟩ := h
  rfl

theorem supplyPrimary_okOr {terms : FillTerms} {inputs : FillInputs} {index : Nat} {primary : Reserve}
    (hprimary : Suppliable terms inputs index primary) (w : Working) (supply : Int) :
    OkOr .overflow (supplyPrimary terms inputs w supply) := by
  have haddTo : ∀ {κ : Type} [Ord κ] [Std.TransOrd κ] (map : BTreeMap κ Int) (key : κ) (amount : Int),
      OkOr .overflow (addTo map key amount) := by
    intro κ _ _ map key amount
    unfold addTo
    split
    · exact .inl ⟨_, rfl⟩
    · exact OkOr.bind (narrow_okOr _) fun _ _ => .inl ⟨_, rfl⟩
  simp only [supplyPrimary]
  split
  case isFalse => exact .inl ⟨_, rfl⟩
  refine OkOr.bind (.ok hprimary.found) fun found hfound => ?_
  obtain rfl : (index, primary) = found := Except.ok.inj (hprimary.found.symm.trans hfound)
  refine OkOr.bind (mulDiv_okOr hprimary.rate_pos) fun bTokens _ => ?_
  split
  case isFalse => exact .inl ⟨_, rfl⟩
  refine OkOr.bind (haddTo _ _ _) fun _ _ => OkOr.bind (haddTo _ _ _) fun _ _ => ?_
  exact .inl ⟨_, rfl⟩

/-- The reserves a fill is valued against are the pool's after a default path
or as they are. -/
theorem valuationReserves_defaulted {inputs : FillInputs} {scaled : ScaledAuction} {reserves : BTreeMap Nat Reserve}
    (h : valuationReserves inputs scaled = .ok reserves) : Defaulted inputs.reserves reserves := by
  simp only [valuationReserves] at h
  split at h
  · simp only [defaultedReserves, bind_ok_iff, pure_ok_iff] at h
    obtain ⟨_, -, _, -, outcome, houtcome, rfl⟩ := h
    exact projectDefault_defaulted houtcome
  · cases h
    exact .refl _

/-- No request leaves a debt below nothing. -/
theorem applyRequest_owed {pool : PoolReserves} {p p' : Positions} {request : Request}
    (h0 : ∀ index, 0 ≤ p.liabilities.getD index 0) (h : applyRequest pool p request = .ok p') (index : Nat) :
    0 ≤ p'.liabilities.getD index 0 := by
  cases request with
  | repay asset amount =>
    simp only [applyRequest, bind_ok_iff, pure_ok_iff] at h
    obtain ⟨⟨found, reserve⟩, -, tokens, -, rfl⟩ := h
    dsimp only
    have howed := h0 found
    rw [setBalance_getD (by omega)]
    split
    · omega
    · exact h0 index
  | withdraw asset amount =>
    simp only [applyRequest, bind_ok_iff, pure_ok_iff] at h
    obtain ⟨_, -, _, -, rfl⟩ := h
    exact h0 index
  | withdrawAll asset =>
    simp only [applyRequest, bind_ok_iff, pure_ok_iff] at h
    obtain ⟨_, -, rfl⟩ := h
    exact h0 index
  | supplyCollateral asset amount =>
    simp only [applyRequest, bind_ok_iff, pure_ok_iff] at h
    obtain ⟨_, -, _, -, rfl⟩ := h
    exact h0 index

/-- Everything before the supply is the same whatever is supplied. -/
theorem project_before_supply {terms : FillTerms} {inputs : FillInputs} {ledger : Nat} {percent : FillPercent}
    {supply : Int} {p : Projection} (howed : ∀ index, 0 ≤ inputs.filler.liabilities.getD index 0)
    (h : project terms inputs ledger percent supply = .ok p) :
    ∃ scaled reserves w, scaleAuction inputs.auction ledger percent.get = .ok scaled ∧
      valuationReserves inputs scaled = .ok reserves ∧ p.primaryAvailable = primaryLeft terms w ∧
      (∀ index, 0 ≤ w.positions.liabilities.getD index 0) ∧
      ∀ supply', project terms inputs ledger percent supply' = (do
        let w' ← supplyPrimary terms inputs w supply'
        let data ← calculatePositionData reserves inputs.prices w'.positions
        pure { toFill := scaled.toFill, positions := w'.positions, actions := w'.actions, spend := w'.spend
               primaryAvailable := primaryLeft terms w, data }) := by
  simp only [project, bind_ok_iff, pure_ok_iff] at h
  obtain ⟨⟨toFill, remaining⟩, hscale, collateral, hc, liabilities, hl, w₁, h₁, w₂, h₂, w₃, h₃, reserves,
    hres, data, hdata, rfl⟩ := h
  refine ⟨_, reserves, w₂, hscale, hres, rfl, fun index => ?_, fun supply' => ?_⟩
  · let start : Positions := { inputs.filler with collateral, liabilities }
    have hstart : ∀ i, 0 ≤ start.liabilities.getD i 0 := fun i =>
      (howed i).trans ((takeOver_held (scaleAuction_pos hscale).1.toList howed hl).1 i)
    have hw₀ : Ledgered inputs start ⟨start, inputs.wallet, [], ∅⟩ := ⟨rfl, Spending.start _⟩
    have hw₁ := foldlM_inv (fun _ => Ledgered inputs start) (fun _ _ _ _ => repayBid_ledgered) hw₀ h₁
    have hw₂ := foldlM_inv (fun _ => Ledgered inputs start) (fun _ _ _ _ => withdrawLot_ledgered) hw₁ h₂
    exact foldlM_inv (fun _ p => ∀ i, 0 ≤ p.liabilities.getD i 0) (fun _ _ _ _ hp hstep => applyRequest_owed hp hstep)
      hstart hw₂.run index
  · simp only [project, hscale, hc, hl, h₁, h₂, hres, bind, Except.bind]

/-- **The wider projection.** With more of the primary supplied, within the
wallet, it answers or overflows; the liabilities stand, and the collateral
differs by the primary's own base. -/
theorem project_widened {terms : FillTerms} {inputs : FillInputs} {ledger : Nat} {percent : FillPercent}
    {supply supply' : Int} {p : Projection} {index : Nat} {primary : Reserve} {price : Int}
    (howed : ∀ index, 0 ≤ inputs.filler.liabilities.getD index 0)
    (hprimary : Suppliable terms inputs index primary) (hkeeps : DefaultKeeps inputs ledger percent index primary)
    (hprice : inputs.prices.price primary.asset = .ok price) (h0 : 0 ≤ supply) (hle : supply ≤ supply')
    (hleft : supply' ≤ p.primaryAvailable) (h : project terms inputs ledger percent supply = .ok p) :
    OkOr .overflow (project terms inputs ledger percent supply') ∧
      ∀ p', project terms inputs ledger percent supply' = .ok p' →
        p'.data.liabilityBase = p.data.liabilityBase ∧ p'.data.scalar = p.data.scalar ∧
        ∃ held, p'.data.collateralBase + primary.heldBase price (held + primary.minted supply) =
          p.data.collateralBase + primary.heldBase price (held + primary.minted supply') := by
  obtain ⟨scaled, reserves, w, hscale, hres, havailable, -, hproject⟩ := project_before_supply howed h
  rw [havailable] at hleft
  have hreserve := hkeeps scaled reserves hscale hres
  rw [hproject] at h ⊢
  simp only [bind_ok_iff, pure_ok_iff] at h
  obtain ⟨w₁, hw₁, data, hdata, rfl⟩ := h
  obtain ⟨hliab, hheld, hother⟩ := supplyPrimary_minted hprimary h0 (hle.trans hleft) hw₁
  obtain ⟨hbase, hdebt, hscalar, hpriced, hvalued⟩ := calculatePositionData_sums hdata
  constructor
  · refine OkOr.bind (supplyPrimary_okOr hprimary w supply') fun w' hw' => ?_
    obtain ⟨hliab', -, hother'⟩ := supplyPrimary_minted hprimary (h0.trans hle) hleft hw'
    refine OkOr.bind (calculatePositionData_okOr (fun i hi => ?_) fun i hi => ?_) fun _ _ => .inl ⟨_, rfl⟩
    · by_cases heq : index = i
      · subst heq
        exact ⟨primary, price, hreserve, hprice⟩
      · rw [hother' i heq, ← hother i heq] at hi
        exact hpriced i hi
    · rw [hliab', ← hliab] at hi ⊢
      exact hvalued i hi
  · intro p' h'
    simp only [bind_ok_iff, pure_ok_iff] at h'
    obtain ⟨w', hw', data', hdata', rfl⟩ := h'
    obtain ⟨hliab', hheld', hother'⟩ := supplyPrimary_minted hprimary (h0.trans hle) hleft hw'
    obtain ⟨hbase', hdebt', hscalar', -, -⟩ := calculatePositionData_sums hdata'
    refine ⟨by rw [hdebt', hdebt, hliab', hliab], by rw [hscalar', hscalar], w.positions.collateral.getD index 0, ?_⟩
    have hzero : ∀ k, heldBaseAt reserves inputs.prices k 0 = 0 := heldBaseAt_zero
    have hsums := TreeMaps.sum_toList_update w₁.positions.collateral w'.positions.collateral hzero
      (fun k hk => (hother' k hk).trans (hother k hk).symm)
    rw [hheld, hheld', heldBaseAt_eq hreserve hprice, heldBaseAt_eq hreserve hprice] at hsums
    rw [hbase', hbase]
    exact hsums

/-! ## The round -/

section Round

variable {terms : FillTerms} {inputs : FillInputs} {index : Nat} {primary : Reserve}

/-- What `supply_for` answers for a projection that is short. -/
theorem supplyFor_short {data : PositionData} {amount : Int} (hprimary : Suppliable terms inputs index primary)
    (hshort : data.collateralBase < wantedBase terms data) (h : supplyFor terms inputs data = .ok amount) :
    ∃ price, inputs.prices.price primary.asset = .ok price ∧ 0 < price ∧ 0 < amount ∧
      amount = primary.supplyFor price (wantedBase terms data - data.collateralBase) := by
  have hfactor := hprimary.factor_pos
  have hc : (0 : Int) < primary.config.cFactor := by omega
  simp only [supplyFor, mulCeil_eq SCALAR_7_pos, bind_ok_iff] at h
  obtain ⟨floor, hfloor, shortfall, hshortfall, h⟩ := h
  have hfloor := narrow_ok hfloor
  have hshortfall := narrow_ok hshortfall
  have hwanted : max floor terms.minCollateral = wantedBase terms data := by rw [hfloor]; rfl
  rw [hwanted] at hshortfall
  rw [if_neg (by omega)] at h
  simp only [hprimary.found, bind_ok_iff, Except.ok.injEq, exists_eq_left'] at h
  rw [if_neg (by omega)] at h
  simp only [bind_ok_iff] at h
  obtain ⟨price, hprice, back, hback, underlying, hunderlying, h⟩ := h
  have hpos := price_pos hprice
  rw [mulCeil_eq hpos] at hback
  rw [divCeil_eq hc] at hunderlying
  have hback := narrow_ok hback
  have hunderlying := narrow_ok hunderlying
  have hamount := narrow_ok h
  have hmax : max shortfall 0 = wantedBase terms data - data.collateralBase := by omega
  rw [hmax] at hback
  have hback0 : 0 ≤ back := by
    rw [hback]
    exact ceilDiv_nonneg hpos (Int.mul_nonneg (by omega) primary.scalar_pos.le)
  have hunderlying0 : 0 ≤ underlying := by
    rw [hunderlying]
    exact ceilDiv_nonneg hc (Int.mul_nonneg hback0 SCALAR_7_pos.le)
  refine ⟨price, hprice, hpos, ?_, ?_⟩
  · rw [hamount]
    simp only [SUPPLY_ROUNDING_ALLOWANCE]
    omega
  · rw [hamount, hunderlying, hback]
    rfl

variable (hrates : ∀ (index : Nat) (reserve : Reserve), inputs.reserves[index]? = some reserve → 0 < reserve.data.dRate)
  (howed : ∀ index, 0 ≤ inputs.filler.liabilities.getD index 0)

include hrates howed

theorem project_owes {ledger : Nat} {percent : FillPercent} {supply : Int} {p : Projection}
    (h : project terms inputs ledger percent supply = .ok p) : 0 ≤ p.data.liabilityBase ∧ 0 ≤ p.data.scalar := by
  obtain ⟨scaled, reserves, w, -, hres, -, hnonneg, hproject⟩ := project_before_supply howed h
  rw [hproject] at h
  simp only [bind_ok_iff, pure_ok_iff] at h
  obtain ⟨w', hw', data, hdata, rfl⟩ := h
  obtain ⟨-, -, hscalar, -, -⟩ := calculatePositionData_sums hdata
  constructor
  · have hdebts := (valuationReserves_defaulted hres).debts
    refine calculatePositionData_liability_nonneg (hdebts.dRate_nonneg fun index r hr => (hrates index r hr).le) ?_ hdata
    rw [supplyPrimary_liabilities hw']
    exact hnonneg
  · dsimp only
    rw [hscalar, inputs.prices.scalar_eq]
    exact Int.pow_nonneg (by decide)

/-- A short projection has less than the collateral wanted. -/
theorem project_short {ledger : Nat} {percent : FillPercent} {supply : Int} {p : Projection}
    (h : project terms inputs ledger percent supply = .ok p) (hshort : healthy terms p = .ok false) :
    p.data.collateralBase < wantedBase terms p.data := by
  obtain ⟨hdebt, hscalar⟩ := project_owes hrates howed h
  by_contra hless
  exact healthy_of_wanted hdebt hscalar (by omega) hshort

/-- With the amount `supply_for` answers on top, a short projection is
healthy, or its arithmetic overflows. -/
theorem project_closed {ledger : Nat} {percent : FillPercent} {supply amount : Int} {p : Projection}
    (hprimary : Suppliable terms inputs index primary) (hkeeps : DefaultKeeps inputs ledger percent index primary)
    (h0 : 0 ≤ supply) (h : project terms inputs ledger percent supply = .ok p)
    (hshort : healthy terms p = .ok false) (hamount : supplyFor terms inputs p.data = .ok amount)
    (hwallet : supply + amount ≤ p.primaryAvailable) :
    (project terms inputs ledger percent (supply + amount) >>= healthy terms) = .ok true ∨
      (project terms inputs ledger percent (supply + amount) >>= healthy terms) = .error .overflow := by
  have hless := project_short hrates howed h hshort
  obtain ⟨price, hprice, hpos, hmore, hsupply⟩ := supplyFor_short hprimary hless hamount
  obtain ⟨hanswers, hwider⟩ := project_widened howed hprimary hkeeps hprice h0 (by omega) hwallet h
  have hresult : OkOr .overflow (project terms inputs ledger percent (supply + amount) >>= healthy terms) := by
    refine OkOr.bind hanswers fun p' hp' => healthy_okOr ?_
    exact (project_owes hrates howed hp').1
  rcases hresult with ⟨answer, hok⟩ | hover
  · left
    obtain ⟨p', hp', hhealthy⟩ := bind_ok_iff.1 hok
    obtain ⟨hdebt, hscalar⟩ := project_owes hrates howed hp'
    obtain ⟨hsame, -, held, hbase⟩ := hwider p' hp'
    have hgain := Reserve.heldBase_supply hprimary.rate_pos hprimary.rate_le hprimary.factor_pos hpos held supply
      (wantedBase terms p.data - p.data.collateralBase)
    rw [← hsupply] at hgain
    have hwanted : wantedBase terms p'.data = wantedBase terms p.data := by simp only [wantedBase, hsame]
    have henough : wantedBase terms p'.data ≤ p'.data.collateralBase := by omega
    cases answer with
    | true => exact hok
    | false => exact absurd hhealthy (healthy_of_wanted hdebt hscalar henough)
  · exact .inr hover

end Round

/-! ## The planner's rounds -/

/-- `plan_fill`'s first candidate ledger and the last one it may search, none
for a lot worth nothing. -/
def firstCandidate (terms : FillTerms) (inputs : FillInputs) : Except MathError (Option (Nat × Nat)) := do
  let whole ← calculatePositionData inputs.reserves inputs.prices
    (← auctionPositions inputs.auction inputs.assetIndex)
  if whole.collateralRaw = 0 then
    return none
  let start := inputs.auction.block
  let earliest := max inputs.earliestLedger start
  let delay ← objectiveDelay terms whole
  let delay := if terms.forceFill then min delay FORCE_FILL_MAX_DELAY else delay
  let ledger := max (← addU32 start delay) earliest
  let reach := if terms.forceFill then FORCE_FILL_MAX_DELAY else RAMP_END_BLOCKS
  return some (ledger, max (← addU32 start reach) ledger)

theorem planFill_firstCandidate {terms : FillTerms} {inputs : FillInputs} {answer : PlannedFill}
    (h : planFill terms inputs = .ok answer) :
    answer = .skip .unprofitable ∨ ∃ ledger last, firstCandidate terms inputs = .ok (some (ledger, last)) ∧
      planRounds terms inputs ledger last terms.planIterations {} = .ok answer := by
  simp only [planFill, bind_ok_iff] at h
  obtain ⟨positions, hpositions, whole, hwhole, h⟩ := h
  split at h
  · exact .inl (pure_ok_iff.1 h).symm
  next hlot =>
  simp only [bind_ok_iff] at h
  obtain ⟨delay, hdelay, target, htarget, reach, hreach, h⟩ := h
  refine .inr ⟨_, _, ?_, h⟩
  simp only [firstCandidate, bind_ok_iff]
  refine ⟨positions, hpositions, whole, hwhole, ?_⟩
  rw [if_neg hlot]
  simp only [bind_ok_iff]
  exact ⟨delay, hdelay, target, htarget, reach, hreach, rfl⟩

/-- The skips that say the filler's position could not carry the fill. -/
def FillSkip.Short (reason : FillSkip) : Prop := reason = .health ∨ reason = .unfunded ∨ reason = .supplyCapped

theorem settle_not_short {terms : FillTerms} {inputs : FillInputs} {ledger : Nat} {percent : FillPercent}
    {projection : Projection} {reason : FillSkip}
    (h : settle terms inputs ledger percent projection = .ok (.skip reason)) : ¬reason.Short := by
  simp only [settle] at h
  split at h
  · simp only [pure_ok_iff, PlannedFill.skip.injEq] at h
    subst h
    simp [FillSkip.Short]
  simp only [bind_ok_iff] at h
  obtain ⟨d, -, h⟩ := h
  split at h
  · simp only [pure_ok_iff, PlannedFill.skip.injEq] at h
    subst h
    simp [FillSkip.Short]
  · simp [pure, Except.pure] at h

/-- The wallet and the cap hold the amount the first round computes. -/
def HoldsFirst (terms : FillTerms) (inputs : FillInputs) (ledger : Nat) (primary : Reserve) : Prop :=
  ∀ p amount room, project terms inputs ledger inputs.maxPercent 0 = .ok p →
    supplyFor terms inputs p.data = .ok amount → supplyHeadroom primary amount = .ok room →
    amount ≤ p.primaryAvailable ∧ amount ≤ room

section Rounds

variable {terms : FillTerms} {inputs : FillInputs} {index : Nat} {primary : Reserve}
  (hrates : ∀ (index : Nat) (reserve : Reserve), inputs.reserves[index]? = some reserve → 0 < reserve.data.dRate)
  (howed : ∀ index, 0 ≤ inputs.filler.liabilities.getD index 0)

include hrates howed

/-- Two rounds are enough: the first one computes the amount, and the second
one is healthy with it. -/
theorem planRounds_not_short {ledger last n : Nat} {reason : FillSkip}
    (hprimary : Suppliable terms inputs index primary) (hallowed : terms.supplyAllowed = true)
    (hkeeps : DefaultKeeps inputs ledger inputs.maxPercent index primary)
    (hholds : HoldsFirst terms inputs ledger primary)
    (h : planRounds terms inputs ledger last (n + 2) {} = .ok (.skip reason)) : ¬reason.Short := by
  rw [planRounds] at h
  simp only [bind_ok_iff] at h
  obtain ⟨p, hp, h⟩ := h
  split at h
  · simp only [pure_ok_iff, PlannedFill.skip.injEq] at h
    subst h
    simp [FillSkip.Short]
  simp only [bind_ok_iff] at h
  obtain ⟨healthy₁, hhealthy, h⟩ := h
  cases healthy₁ with
  | true => exact settle_not_short (by simpa using h)
  | false =>
    simp only [Bool.false_eq_true, ↓reduceIte, bind_ok_iff] at h
    obtain ⟨wider, hwider, h⟩ := h
    simp only [widenSupply, bind_ok_iff, hprimary.found, Except.ok.injEq, exists_eq_left', pure_ok_iff] at hwider
    obtain ⟨amount, hamount, wanted, hwanted, room, hroom, rfl⟩ := hwider
    have hwanted : wanted = 0 + amount := narrow_ok hwanted
    rw [Int.zero_add] at hwanted
    subst hwanted
    have hless := project_short hrates howed hp hhealthy
    obtain ⟨-, -, -, hpos, -⟩ := supplyFor_short hprimary hless hamount
    obtain ⟨hwallet, hcap⟩ := hholds p wanted room hp hamount hroom
    have hmin : min (min wanted p.primaryAvailable) room = wanted := by omega
    simp only [hmin] at h
    rw [if_pos hpos, planRounds] at h
    simp only [bind_ok_iff] at h
    obtain ⟨p', hp', h⟩ := h
    split at h
    · simp only [pure_ok_iff, PlannedFill.skip.injEq] at h
      subst h
      simp [FillSkip.Short]
    simp only [bind_ok_iff] at h
    obtain ⟨healthy₂, hhealthy', h⟩ := h
    have hclosed := project_closed hrates howed hprimary hkeeps le_rfl hp hhealthy hamount
      (by rw [Int.zero_add]; exact hwallet)
    rw [Int.zero_add, hp'] at hclosed
    have hclosed : healthy terms p' = .ok true ∨ healthy terms p' = .error .overflow := hclosed
    rw [hhealthy'] at hclosed
    rcases hclosed with htrue | hover
    · cases htrue
      exact settle_not_short (by simpa using h)
    · cases hover

end Rounds

/-- **One supply round closes any shortfall it can afford.** A projection that
is short, supplied with what `supply_for` answers on top, is healthy, unless
its arithmetic overflows; so with two rounds or more, and the wallet and the
cap holding the amount computed first, no fill is skipped for its health. -/
theorem supply_round_closes {terms : FillTerms} {inputs : FillInputs} {index : Nat} {primary : Reserve}
    (hrates : ∀ (index : Nat) (reserve : Reserve), inputs.reserves[index]? = some reserve → 0 < reserve.data.dRate)
    (howed : ∀ index, 0 ≤ inputs.filler.liabilities.getD index 0)
    (hprimary : Suppliable terms inputs index primary) :
    (∀ ledger percent supply amount p, DefaultKeeps inputs ledger percent index primary → 0 ≤ supply →
      project terms inputs ledger percent supply = .ok p → healthy terms p = .ok false →
      supplyFor terms inputs p.data = .ok amount → supply + amount ≤ p.primaryAvailable →
      (project terms inputs ledger percent (supply + amount) >>= healthy terms) = .ok true ∨
        (project terms inputs ledger percent (supply + amount) >>= healthy terms) = .error .overflow) ∧
    (terms.supplyAllowed = true → 2 ≤ terms.planIterations →
      (∀ ledger last, firstCandidate terms inputs = .ok (some (ledger, last)) →
        DefaultKeeps inputs ledger inputs.maxPercent index primary ∧ HoldsFirst terms inputs ledger primary) →
      ∀ reason : FillSkip, reason.Short → planFill terms inputs ≠ .ok (.skip reason)) := by
  refine ⟨fun ledger percent supply amount p hkeeps h0 h hshort hamount hwallet =>
    project_closed hrates howed hprimary hkeeps h0 h hshort hamount hwallet, ?_⟩
  intro hallowed hrounds hfirst reason hreason h
  rcases planFill_firstCandidate h with heq | ⟨ledger, last, hcandidate, hplan⟩
  · cases heq
    simp [FillSkip.Short] at hreason
  · obtain ⟨hkeeps, hholds⟩ := hfirst ledger last hcandidate
    obtain ⟨n, hn⟩ := Nat.exists_eq_add_of_le' hrounds
    rw [hn] at hplan
    exact planRounds_not_short hrates howed hprimary hallowed hkeeps hholds hplan hreason

/-- The sample's first round: short, and what it computes is held by the
wallet and the cap. -/
theorem supplyingInputs_first :
    (do let p ← project supplyingTerms supplyingInputs 1165 supplyingInputs.maxPercent 0
        let found ← healthy supplyingTerms p
        let amount ← supplyFor supplyingTerms supplyingInputs p.data
        let room ← supplyHeadroom (sampleReserve "USDC" 0 9500000 9500000) amount
        pure (found, amount, p.primaryAvailable, room)) = .ok (false, 255526319, 339933999, 255526319) := by
  decide +kernel

theorem supplyingInputs_suppliable :
    Suppliable supplyingTerms supplyingInputs 0 (sampleReserve "USDC" 0 9500000 9500000) :=
  ⟨by rfl, by decide, by decide, by decide⟩

theorem DefaultKeeps.of_valued {inputs : FillInputs} {ledger : Nat} {percent : FillPercent} {index : Nat}
    {primary : Reserve} (h : ((scaleAuction inputs.auction ledger percent.get >>= valuationReserves inputs).toOption.bind
      fun reserves => reserves[index]?) = some primary) : DefaultKeeps inputs ledger percent index primary := by
  intro scaled reserves hscale hreserves
  have hvalued : (scaleAuction inputs.auction ledger percent.get >>= valuationReserves inputs) = .ok reserves :=
    bind_ok_iff.2 ⟨scaled, hscale, hreserves⟩
  rw [hvalued] at h
  exact h

/-- The sample's borrower keeps collateral, so its fill defaults nothing. -/
theorem supplyingInputs_keeps : DefaultKeeps supplyingInputs 1165 supplyingInputs.maxPercent 0
    (sampleReserve "USDC" 0 9500000 9500000) := .of_valued (by rfl)

/-- The sample fill is short before it supplies, healthy after, and is not
skipped for its health. -/
theorem supply_round_closes_sample :
    (∃ p, project supplyingTerms supplyingInputs 1165 supplyingInputs.maxPercent 0 = .ok p ∧
      healthy supplyingTerms p = .ok false) ∧
    (project supplyingTerms supplyingInputs 1165 supplyingInputs.maxPercent (0 + 255526319) >>=
      healthy supplyingTerms) = .ok true ∧
    ∀ reason : FillSkip, reason.Short → planFill supplyingTerms supplyingInputs ≠ .ok (.skip reason) := by
  have hrates : ∀ (index : Nat) (reserve : Reserve), supplyingInputs.reserves[index]? = some reserve →
      0 < reserve.data.dRate := by
    intro index reserve h
    rcases sampleReserves_cases h with ⟨-, rfl⟩ | ⟨-, rfl⟩ <;> decide
  have howed : ∀ index, 0 ≤ supplyingInputs.filler.liabilities.getD index 0 := by
    intro index
    simp only [supplyingInputs, TreeMaps.getD_insert]
    split
    · decide
    · simp
  obtain ⟨hcloses, hplans⟩ := supply_round_closes hrates howed supplyingInputs_suppliable
  have hfirst := supplyingInputs_first
  simp only [bind_ok_iff, pure_ok_iff, Prod.mk.injEq] at hfirst
  obtain ⟨p, hp, found, hfound, amount, hamount, room, hroom, rfl, rfl, havailable, rfl⟩ := hfirst
  refine ⟨⟨p, hp, hfound⟩, ?_, hplans rfl (by decide) fun ledger last hcandidate => ?_⟩
  · have hdone : (project supplyingTerms supplyingInputs 1165 supplyingInputs.maxPercent (0 + 255526319) >>=
        healthy supplyingTerms) ≠ .error .overflow := by decide +kernel
    refine (hcloses 1165 _ 0 255526319 p supplyingInputs_keeps le_rfl hp hfound hamount ?_).resolve_right hdone
    rw [havailable]
    decide
  · have hledger : firstCandidate supplyingTerms supplyingInputs = .ok (some (1165, 1400)) := by decide +kernel
    rw [hledger] at hcandidate
    cases hcandidate
    refine ⟨supplyingInputs_keeps, fun p' amount' room' hp' hamount' hroom' => ?_⟩
    obtain rfl : p = p' := Except.ok.inj (hp.symm.trans hp')
    rw [hamount] at hamount'
    cases hamount'
    rw [hroom] at hroom'
    cases hroom'
    rw [havailable]
    decide

/-- The sample's prices, and one for a reserve that backs nothing. -/
def deadPrices : OraclePrices where
  decimals := 7
  scalar := 10 ^ 7
  prices := samplePrices.prices.insert "DEAD" 10000000
  scalar_eq := SCALAR_7_eq
  prices_pos := fun asset price h => by
    rw [TreeMaps.getElem?_insert] at h
    split at h
    · cases h
      decide
    · exact samplePrices.prices_pos asset price h

/-- The same fill by a filler that holds so much of that reserve that its
collateral is a thousand units short of the largest `i128`. -/
def deadInputs : FillInputs :=
  { supplyingInputs with
    reserves := sampleReserves.insert 2
      { sampleReserve "DEAD" 2 0 9500000 with
        data := { (sampleReserve "DEAD" 2 0 9500000).data with bRate := SCALAR_12 } }
    assetIndex := sampleAssetIndex.insert "DEAD" 2
    prices := deadPrices
    filler :=
      { supplyingInputs.filler with
        collateral := supplyingInputs.filler.collateral.insert 2 (i128Max - 1743000000 - 1000) } }

/-- Short by an amount that the wallet and the cap hold, and with it supplied the
raw collateral leaves the `i128` range: the round answers an error. -/
theorem supply_round_overflows :
    supplyingTerms.supplyAllowed = true ∧ Suppliable supplyingTerms deadInputs 0 (sampleReserve "USDC" 0 9500000 9500000) ∧
    DefaultKeeps deadInputs 1165 deadInputs.maxPercent 0 (sampleReserve "USDC" 0 9500000 9500000) ∧
    7 ≤ deadInputs.prices.decimals ∧
    ∃ p amount room, project supplyingTerms deadInputs 1165 deadInputs.maxPercent 0 = .ok p ∧
      healthy supplyingTerms p = .ok false ∧ supplyFor supplyingTerms deadInputs p.data = .ok amount ∧
      supplyHeadroom (sampleReserve "USDC" 0 9500000 9500000) (0 + amount) = .ok room ∧
      0 + amount ≤ p.primaryAvailable ∧ 0 + amount ≤ room ∧
      (project supplyingTerms deadInputs 1165 deadInputs.maxPercent (0 + amount) >>= healthy supplyingTerms) =
        .error .overflow := by
  refine ⟨rfl, ⟨by rfl, by decide, by decide, by decide⟩, .of_valued (by rfl), by decide, ?_⟩
  have hrun : (do
      let p ← project supplyingTerms deadInputs 1165 deadInputs.maxPercent 0
      let found ← healthy supplyingTerms p
      let amount ← supplyFor supplyingTerms deadInputs p.data
      let room ← supplyHeadroom (sampleReserve "USDC" 0 9500000 9500000) (0 + amount)
      pure (found, amount, p.primaryAvailable, room)) = .ok (false, 255526319, 339933999, 255526319) := by
    decide +kernel
  have hover : (project supplyingTerms deadInputs 1165 deadInputs.maxPercent (0 + 255526319) >>=
      healthy supplyingTerms) = .error .overflow := by decide +kernel
  simp only [bind_ok_iff, pure_ok_iff, Prod.mk.injEq] at hrun
  obtain ⟨p, hp, found, hfound, amount, hamount, room, hroom, rfl, rfl, havailable, rfl⟩ := hrun
  refine ⟨p, 255526319, 255526319, hp, hfound, hamount, hroom, ?_, by decide, hover⟩
  rw [havailable]
  decide

end BlendLiquidator
