/-
`planUnwind` strands nothing: in the state it projects to, no further
withdrawal is one the bounds accept.

The formula of `partial` inverts the valuation exactly: `Reserve.staysFor` is
the least position worth a given base (`Reserve.staysFor_le_iff`), each of
its roundings the adjoint of one of `Reserve.heldBase`. So what `mayGo`
leaves is the least the bounds accept, and the projection after it never
refuses. A candidate is then out of reach for good (`Stuck`): later
candidates only take from the total it is measured against.
-/
import BlendLiquidator.Effects

namespace BlendLiquidator

open Results IntDiv

/-! ## The inversions -/

/-- The b-tokens a withdrawal of `amount` burns. -/
def Reserve.burnt (r : Reserve) (amount : Int) : Int := ceilDiv (amount * SCALAR_12) r.data.bRate

/-- The least position worth `base` at a price. -/
def Reserve.staysFor (r : Reserve) (price base : Int) : Int :=
  r.burnt (ceilDiv (ceilDiv (base * r.scalar) price * SCALAR_7) r.config.cFactor)

/-- What a position of `held` is left with by a withdrawal of `amount`. -/
def Reserve.leftBy (r : Reserve) (held amount : Int) : Int := held - min (r.burnt amount) held

section Inversions

variable {r : Reserve} (hrate : 0 < r.data.bRate)

include hrate

theorem Reserve.burnt_le_iff {amount bTokens : Int} : r.burnt amount ≤ bTokens ↔ amount ≤ r.worth bTokens := by
  rw [burnt, ceilDiv_le_iff hrate, worth, Int.le_ediv_iff_mul_le SCALAR_12_pos]

theorem Reserve.burnt_pos {amount : Int} (h : 0 < amount) : 0 < r.burnt amount :=
  ceilDiv_pos hrate (Int.mul_pos h SCALAR_12_pos)

/-- Two withdrawals burn no less than the one of both. -/
theorem Reserve.burnt_add_le (amount amount' : Int) :
    r.burnt (amount + amount') ≤ r.burnt amount + r.burnt amount' := by
  refine (ceilDiv_le_iff hrate).2 ?_
  have h : amount * SCALAR_12 ≤ r.burnt amount * r.data.bRate := le_ceilDiv_mul hrate
  have h' : amount' * SCALAR_12 ≤ r.burnt amount' * r.data.bRate := le_ceilDiv_mul hrate
  rw [Int.add_mul, Int.add_mul]
  omega

/-- Past what `goes` is worth, a withdrawal on top of that one burns more
than was left of `goes`. -/
theorem Reserve.burnt_past (goes : Int) {amount : Int} (h : 1 ≤ amount) :
    goes < r.burnt (r.worth goes) + r.burnt amount := by
  have hpast : goes < r.burnt (r.worth goes + amount) := by
    by_contra hle
    have hworth := (Reserve.burnt_le_iff hrate).1 (Int.not_lt.1 hle)
    omega
  have hsum := Reserve.burnt_add_le hrate (r.worth goes) amount
  omega

/-- **The formula is exact.** A position is worth `base` just when it is no
smaller than `staysFor` says. -/
theorem Reserve.staysFor_le_iff {price base bTokens : Int} (hprice : 0 < price) (hfactor : r.config.cFactor ≠ 0) :
    r.staysFor price base ≤ bTokens ↔ base ≤ r.heldBase price bTokens := by
  have hfactor : (0 : Int) < r.config.cFactor := by omega
  rw [staysFor, Reserve.burnt_le_iff hrate, ceilDiv_le_iff hfactor, ← Int.le_ediv_iff_mul_le SCALAR_7_pos,
    ceilDiv_le_iff hprice, Int.mul_comm _ price, ← Int.le_ediv_iff_mul_le r.scalar_pos, heldBase]

theorem Reserve.worth_nonneg {bTokens : Int} (h : 0 ≤ bTokens) : 0 ≤ r.worth bTokens :=
  Int.ediv_nonneg (Int.mul_nonneg h hrate.le) (by decide)

theorem Reserve.heldBase_nonneg {price bTokens : Int} (hprice : 0 < price) (h : 0 ≤ bTokens) :
    0 ≤ r.heldBase price bTokens := by
  have hworth := Reserve.worth_nonneg hrate h
  have heffective : 0 ≤ r.worth bTokens * r.config.cFactor / SCALAR_7 :=
    Int.ediv_nonneg (Int.mul_nonneg hworth (by omega)) (by decide)
  exact Int.ediv_nonneg (Int.mul_nonneg hprice.le heffective) r.scalar_pos.le

end Inversions

/-! ## The bounds over exact integers -/

/-- The collateral the bounds ask of a position that owes `liabilityBase`. -/
def Bounds.required (bounds : Bounds) (liabilityBase : Int) : Int :=
  max (ceilDiv (liabilityBase * bounds.margin) SCALAR_7) bounds.minCollateral

/-- With seven decimals or more, the floor of the health test rounds nothing. -/
theorem scalar_mul_margin {prices : OraclePrices} (hdec : 7 ≤ prices.decimals) (margin : Int) :
    ∃ unit : Int, 0 < unit ∧ prices.scalar = unit * SCALAR_7 ∧ prices.scalar * margin / SCALAR_7 = unit * margin := by
  have hsplit : prices.scalar = 10 ^ (prices.decimals - 7) * SCALAR_7 := by
    rw [prices.scalar_eq, SCALAR_7_eq, ← Int.pow_add]
    congr 1
    omega
  refine ⟨10 ^ (prices.decimals - 7), Int.pow_pos (by decide), hsplit, ?_⟩
  rw [hsplit, Int.mul_assoc, Int.mul_comm SCALAR_7 margin, ← Int.mul_assoc]
  exact Int.mul_ediv_cancel _ (by decide)

/-- Where the bounds answer, they ask for `required`. -/
theorem Bounds.accepts_iff {bounds : Bounds} {prices : OraclePrices} {data : PositionData} {answer : Bool}
    (hdec : 7 ≤ prices.decimals) (hscalar : data.scalar = prices.scalar) (hc : 0 ≤ data.collateralBase)
    (hl : 0 ≤ data.liabilityBase) (h : bounds.accepts data = .ok answer) :
    answer = true ↔ bounds.required data.liabilityBase ≤ data.collateralBase := by
  simp only [accepts, bind_ok_iff, pure_ok_iff] at h
  obtain ⟨under, hu, rfl⟩ := h
  suffices hunder : under = false ↔ ceilDiv (data.liabilityBase * bounds.margin) SCALAR_7 ≤ data.collateralBase by
    rw [required, Int.max_le, Bool.and_eq_true, Bool.not_eq_true', decide_eq_true_eq, hunder]
  by_cases hzero : data.liabilityBase = 0
  · simp only [PositionData.isHfUnder, PositionData.healthFactor, hzero, ↓reduceIte, bind_ok_iff] at hu
    obtain ⟨factor, hnone, hu⟩ := hu
    cases hnone
    rw [pure_ok_iff] at hu
    subst hu
    simp [hzero, ceilDiv, hc]
  · have hpos : 0 < data.liabilityBase := by omega
    obtain ⟨unit, hunit, hscale, hfloor⟩ := scalar_mul_margin hdec bounds.margin
    simp only [PositionData.isHfUnder, PositionData.healthFactor, hzero, ↓reduceIte, bind_ok_iff, map_ok_iff,
      divFloor_eq hpos] at hu
    obtain ⟨_, ⟨factor, hfactor, rfl⟩, hu⟩ := hu
    simp only [bind_ok_iff, pure_ok_iff, mulFloor_eq SCALAR_7_pos] at hu
    obtain ⟨floor, hf, rfl⟩ := hu
    rw [narrow_ok hfactor, narrow_ok hf, hscalar, hfloor, decide_eq_false_iff_not, Int.not_lt,
      Int.le_ediv_iff_mul_le hpos, ceilDiv_le_iff SCALAR_7_pos, hscale]
    constructor
    · intro hle
      refine Int.le_of_mul_le_mul_left ?_ hunit
      calc unit * (data.liabilityBase * bounds.margin) = unit * bounds.margin * data.liabilityBase := by
            rw [Int.mul_comm data.liabilityBase, Int.mul_assoc]
        _ ≤ data.collateralBase * (unit * SCALAR_7) := hle
        _ = unit * (data.collateralBase * SCALAR_7) := Int.mul_left_comm _ _ _
    · intro hle
      calc unit * bounds.margin * data.liabilityBase = unit * (data.liabilityBase * bounds.margin) := by
            rw [Int.mul_comm data.liabilityBase, Int.mul_assoc]
        _ ≤ unit * (data.collateralBase * SCALAR_7) := Int.mul_le_mul_of_nonneg_left hle hunit.le
        _ = data.collateralBase * (unit * SCALAR_7) := Int.mul_left_comm _ _ _

/-- Positions a party can have. -/
structure Positions.Nonneg (p : Positions) : Prop where
  held : ∀ (index : Nat) (held : Int), p.collateral[index]? = some held → 0 ≤ held
  owed : ∀ index, 0 ≤ p.liabilities.getD index 0

/-- The collateral the bounds ask of a position. -/
def Bounds.asks (bounds : Bounds) (inputs : UnwindInputs) (p : Positions) : Int :=
  bounds.required (liabilitySum inputs.reserves inputs.prices p.liabilities)

/-- The collateral of a position, were `index` at `bTokens`. -/
def collateralWith (inputs : UnwindInputs) (p : Positions) (index : Nat) (bTokens : Int) : Int :=
  collateralSum inputs.reserves inputs.prices p.collateral
    - heldBaseAt inputs.reserves inputs.prices index (p.collateral.getD index 0)
    + heldBaseAt inputs.reserves inputs.prices index bTokens

/-- Two positions that agree but for one index. -/
def AgreeBut (index : Nat) (p p' : Positions) : Prop :=
  p'.liabilities = p.liabilities ∧ ∀ i, index ≠ i → p'.collateral.getD i 0 = p.collateral.getD i 0

theorem AgreeBut.collateralSum_eq {inputs : UnwindInputs} {index : Nat} {p p' : Positions} (h : AgreeBut index p p') :
    collateralSum inputs.reserves inputs.prices p'.collateral =
      collateralWith inputs p index (p'.collateral.getD index 0) := by
  have hzero : ∀ k, heldBaseAt inputs.reserves inputs.prices k 0 = 0 := heldBaseAt_zero
  have hsum := TreeMaps.sum_toList_update p.collateral p'.collateral hzero h.2
  simp only [collateralWith, collateralSum]
  omega

theorem AgreeBut.collateralWith_eq {inputs : UnwindInputs} {index : Nat} {p p' : Positions} (h : AgreeBut index p p')
    (bTokens : Int) : collateralWith inputs p' index bTokens = collateralWith inputs p index bTokens := by
  have hsum : collateralSum inputs.reserves inputs.prices p'.collateral = _ := h.collateralSum_eq
  simp only [collateralWith] at hsum ⊢
  omega

theorem collateralWith_self (inputs : UnwindInputs) (p : Positions) (index : Nat) :
    collateralWith inputs p index (p.collateral.getD index 0) =
      collateralSum inputs.reserves inputs.prices p.collateral := by
  simp only [collateralWith]
  omega

section Bounded

variable {terms : UnwindTerms} {bounds : Bounds} {inputs : UnwindInputs}

theorem projectUnwind_sums (hrates : inputs.RatesPositive) {p : Positions} {data : PositionData} (hp : p.Nonneg)
    (h : projectUnwind inputs p = .ok data) :
    data.collateralBase = collateralSum inputs.reserves inputs.prices p.collateral ∧ 0 ≤ data.collateralBase ∧
      data.liabilityBase = liabilitySum inputs.reserves inputs.prices p.liabilities ∧ 0 ≤ data.liabilityBase ∧
      data.scalar = inputs.prices.scalar := by
  obtain ⟨hc, hl, hs, -, -⟩ := calculatePositionData_sums h
  have hc0 := (calculatePositionData_collateral_nonneg
    (fun index reserve hr => (hrates index reserve hr).1.le) hp.held h).1
  have hl0 := calculatePositionData_liability_nonneg
    (fun index reserve hr => (hrates index reserve hr).2.le) hp.owed h
  exact ⟨hc, hc0, hl, hl0, hs⟩

variable (hwf : inputs.WellFormed) (hdec : 7 ≤ inputs.prices.decimals)

include hwf hdec

theorem accepts_projected_iff {p : Positions} {data : PositionData} {answer : Bool} (hp : p.Nonneg)
    (hdata : projectUnwind inputs p = .ok data) (h : bounds.accepts data = .ok answer) :
    answer = true ↔ bounds.asks inputs p ≤ collateralSum inputs.reserves inputs.prices p.collateral := by
  obtain ⟨hc, hc0, hl, hl0, hs⟩ := projectUnwind_sums hwf.rates_pos hp hdata
  rw [Bounds.accepts_iff hdec hs hc0 hl0 h, hc, hl, Bounds.asks]

theorem Accepted.asks_le {p : Positions} (hp : p.Nonneg) (h : Accepted bounds inputs p) :
    bounds.asks inputs p ≤ collateralSum inputs.reserves inputs.prices p.collateral := by
  obtain ⟨data, hdata, haccepts⟩ := h
  exact (accepts_projected_iff hwf hdec hp hdata haccepts).1 rfl

end Bounded

/-! ## One withdrawal -/

theorem dust_eq (terms : UnwindTerms) :
    ∃ floor, 0 ≤ floor ∧ (terms.minPrimaryCollateral ≤ 0 → floor = 0) ∧
      ∀ amount answer, dust terms amount = .ok answer → answer = decide (amount < floor) := by
  refine ⟨max terms.minPrimaryCollateral 0 * DUST_FLOOR_BPS / BPS, ?_, fun hmin => ?_, fun amount answer h => ?_⟩
  · exact Int.ediv_nonneg (Int.mul_nonneg (le_max_right _ _) (by decide)) (by decide)
  · rw [max_eq_right hmin]
    rfl
  · simp only [dust, bind_ok_iff, pure_ok_iff, mulFloor_eq (show 0 < BPS by decide)] at h
    obtain ⟨floor, hf, rfl⟩ := h
    rw [narrow_ok hf]

/-- No more is dust than less. -/
theorem dust_mono {terms : UnwindTerms} {amount more : Int} {answer : Bool} (hle : amount ≤ more)
    (h : dust terms amount = .ok false) (h' : dust terms more = .ok answer) : answer = false := by
  obtain ⟨floor, -, -, hdust⟩ := dust_eq terms
  have hamount := hdust amount false h
  rw [hdust more answer h', decide_eq_false_iff_not]
  rw [eq_comm, decide_eq_false_iff_not] at hamount
  omega

/-- What the planner may send of the primary: no dust, nothing of its
minimum, and no remainder that is worth nothing. -/
structure Sendable (terms : UnwindTerms) (reserve : Reserve) (held amount : Int) : Prop where
  large : dust terms amount = .ok false
  floor : primaryFloor terms reserve ≤ reserve.leftBy held amount
  worth : 0 < terms.minPrimaryCollateral ∨ 1 ≤ reserve.worth held

section OneWithdrawal

variable {terms : UnwindTerms} {bounds : Bounds} {inputs : UnwindInputs} {primary index : Nat} {reserve : Reserve}
  {w w' : Withdrawing}

theorem Reserve.leftBy_nonneg (r : Reserve) (held amount : Int) : 0 ≤ r.leftBy held amount := by
  simp only [leftBy]
  omega

theorem Reserve.leftBy_lt {r : Reserve} {held amount stays : Int} (hpos : 0 < stays)
    (h : held - stays < r.burnt amount) : r.leftBy held amount < stays := by
  simp only [leftBy]
  omega

theorem primaryFloor_nonneg (terms : UnwindTerms) (hrate : 0 < reserve.data.bRate) : 0 ≤ primaryFloor terms reserve :=
  ceilDiv_nonneg hrate (Int.mul_nonneg (le_max_right _ _) (by decide))

/-- Where something may be sent, the excess over the floor may be. -/
theorem Sendable.excess {held amount : Int} (hrate : 0 < reserve.data.bRate) (hheld : 0 < held) (hpos : 1 ≤ amount)
    (h : Sendable terms reserve held amount) :
    0 < held - primaryFloor terms reserve ∧ 1 ≤ reserve.worth (held - primaryFloor terms reserve) ∧
      ∀ answer, dust terms (reserve.worth (held - primaryFloor terms reserve)) = .ok answer → answer = false := by
  have hburnt := Reserve.burnt_pos hrate (show 0 < amount by omega)
  have hfloor := h.floor
  have hfloor0 := primaryFloor_nonneg terms hrate
  simp only [Reserve.leftBy] at hfloor
  by_cases hwhole : reserve.burnt amount ≤ held
  · have hwithin : reserve.burnt amount ≤ held - primaryFloor terms reserve := by omega
    have hworth := (Reserve.burnt_le_iff hrate).1 hwithin
    exact ⟨by omega, by omega, fun _ => dust_mono hworth h.large⟩
  · -- It takes the whole position, so there is no floor to keep and no dust.
    have hzero : primaryFloor terms reserve = 0 := by omega
    have hmin : terms.minPrimaryCollateral ≤ 0 := by
      by_contra hmin
      have hpos : 0 < primaryFloor terms reserve :=
        ceilDiv_pos hrate (Int.mul_pos (by omega) SCALAR_12_pos)
      omega
    have hworth : 1 ≤ reserve.worth held := by
      rcases h.worth with hpos | hworth
      · omega
      · exact hworth
    rw [hzero, Int.sub_zero]
    refine ⟨hheld, hworth, fun answer hdust => ?_⟩
    obtain ⟨floor, -, hnone, heq⟩ := dust_eq terms
    rw [heq _ _ hdust, hnone hmin, decide_eq_false_iff_not]
    omega

/-- Once the excess has gone, what stands above the floor is worth nothing. -/
theorem worth_left_of_excess (terms : UnwindTerms) (held : Int) (hrate : 0 < reserve.data.bRate) :
    reserve.worth (reserve.leftBy held (reserve.worth (held - primaryFloor terms reserve))
      - primaryFloor terms reserve) < 1 := by
  have hfloor := primaryFloor_nonneg terms hrate
  have hfits := (Reserve.burnt_le_iff hrate).2 (le_refl (reserve.worth (held - primaryFloor terms reserve)))
  have hpast := Reserve.burnt_past hrate (held - primaryFloor terms reserve) (le_refl 1)
  by_contra hworth
  have hmore := (Reserve.burnt_le_iff hrate).2 (Int.not_lt.1 hworth)
  rw [Reserve.leftBy] at hmore
  omega

theorem primaryExcess_cases {p : Positions} {excess : Int} (hrate : 0 < reserve.data.bRate)
    (hp : primaryIndex terms inputs = .ok primary) (hr : inputs.reserves[primary]? = some reserve)
    (hheld : 0 < p.collateral.getD primary 0) (h : primaryExcess terms inputs p = .ok excess) :
    p.collateral.getD primary 0 - primaryFloor terms reserve ≤ 0 ∧ excess = 0 ∨
      0 < p.collateral.getD primary 0 - primaryFloor terms reserve ∧
        excess = reserve.worth (p.collateral.getD primary 0 - primaryFloor terms reserve) := by
  simp only [primaryExcess, hp, reserveAt_ok_iff.2 hr, bind_ok_iff, Except.ok.injEq, exists_eq_left',
    if_neg (Int.not_le.2 hheld)] at h
  obtain ⟨floor, hf, goes, hg, h⟩ := h
  have hf : floor = primaryFloor terms reserve := toBTokenUp_ok hrate hf
  have hg := narrow_ok hg
  split at h
  · exact .inl ⟨by omega, (pure_ok_iff.1 h).symm⟩
  · rw [Reserve.toAssetFromBToken, mulFloor_eq SCALAR_12_pos] at h
    refine .inr ⟨by omega, ?_⟩
    rw [← hf, ← hg]
    exact narrow_ok h

theorem afterWithdrawal_agree {p next : Positions} {amount : Int} (hrate : 0 < reserve.data.bRate) (hn : p.Nonneg)
    (hr : inputs.reserves[index]? = some reserve) (h : afterWithdrawal inputs p index amount = .ok next) :
    AgreeBut index p next ∧ next.Nonneg ∧
      next.collateral.getD index 0 = reserve.leftBy (p.collateral.getD index 0) amount := by
  obtain ⟨tokens, ht, rfl⟩ := afterWithdrawal_ok (reserveAt_ok_iff.2 hr) h
  have ht : tokens = reserve.burnt amount := toBTokenUp_ok hrate ht
  have hleft := reserve.leftBy_nonneg (p.collateral.getD index 0) amount
  simp only [Reserve.leftBy, ← ht] at hleft ⊢
  refine ⟨⟨rfl, fun i hi => ?_⟩, ⟨setBalance_nonneg hn.held, hn.owed⟩, ?_⟩
  · dsimp only
    rw [setBalance_getD hleft, if_neg hi]
  · rw [setBalance_getD hleft, if_pos rfl]

end OneWithdrawal

/-! ## One candidate -/

/-- What `mayGo` leaves of a position: the least the bounds accept. -/
def Bounds.leaves (bounds : Bounds) (reserve : Reserve) (price : Int) (data : PositionData) (held : Int) : Int :=
  reserve.staysFor price
    (max (reserve.heldBase price held - (data.collateralBase - bounds.required data.liabilityBase)) 0)

theorem mayGo_ok {terms : UnwindTerms} {bounds : Bounds} {inputs : UnwindInputs} {reserve : Reserve}
    {data : PositionData} {price held goes : Int} {isPrimary : Bool} (hrate : 0 < reserve.data.bRate)
    (hfactor : reserve.config.cFactor ≠ 0) (hprice : inputs.prices.price reserve.asset = .ok price)
    (h : mayGo terms bounds inputs reserve data held isPrimary = .ok goes) :
    goes = if isPrimary then min (held - bounds.leaves reserve price data held) (held - primaryFloor terms reserve)
      else held - bounds.leaves reserve price data held := by
  have hfactor : (0 : Int) < reserve.config.cFactor := by omega
  simp only [mayGo, hprice, bind_ok_iff, Except.ok.injEq, exists_eq_left', Reserve.toEffectiveAssetFromBToken,
    Reserve.toAssetFromBToken, mulFloor_eq SCALAR_12_pos, mulFloor_eq SCALAR_7_pos, mulFloor_eq reserve.scalar_pos,
    mulCeil_eq SCALAR_7_pos, mulCeil_eq (price_pos hprice), divCeil_eq hfactor] at h
  obtain ⟨ceil, hceil, room, hroom, effective, ⟨worth, hworth, heffective⟩, carries, hcarries, base, hbase, value, hvalue,
    asset, hasset, stays, hstays, rest, hrest, h⟩ := h
  have hleaves : stays = bounds.leaves reserve price data held := by
    rw [toBTokenUp_ok hrate hstays, narrow_ok hasset, narrow_ok hvalue, narrow_ok hbase, narrow_ok hcarries,
      narrow_ok heffective, narrow_ok hworth, narrow_ok hroom, narrow_ok hceil]
    rfl
  rw [narrow_ok hrest, hleaves] at h
  split at h
  · simp only [bind_ok_iff, pure_ok_iff] at h
    obtain ⟨floor, hf, room', hroom', rfl⟩ := h
    have hf : floor = primaryFloor terms reserve := toBTokenUp_ok hrate hf
    simp only [*, ↓reduceIte, narrow_ok hroom']
  · simp only [*, Bool.false_eq_true, ↓reduceIte]
    exact (pure_ok_iff.1 h).symm

/-- A position no smaller than `leaves` is one the bounds are content with. -/
theorem leaves_le_iff {bounds : Bounds} {inputs : UnwindInputs} {index : Nat} {reserve : Reserve} {w : Withdrawing}
    {data : PositionData} (hrates : inputs.RatesPositive) (hn : w.positions.Nonneg)
    (hr : inputs.reserves[index]? = some reserve) (hdata : projectUnwind inputs w.positions = .ok data) {price bTokens : Int}
    (hprice : inputs.prices.price reserve.asset = .ok price)
    (hfactor : reserve.config.cFactor ≠ 0) (h0 : 0 ≤ bTokens) :
    bounds.leaves reserve price data (w.positions.collateral.getD index 0) ≤ bTokens ↔
      bounds.asks inputs w.positions ≤ collateralWith inputs w.positions index bTokens := by
  obtain ⟨hrate, -⟩ := hrates index reserve hr
  obtain ⟨hc, -, hl, -, -⟩ := projectUnwind_sums hrates hn hdata
  have hbase := Reserve.heldBase_nonneg hrate (price_pos hprice) h0
  rw [Bounds.leaves, Reserve.staysFor_le_iff hrate (price_pos hprice) hfactor, collateralWith, Bounds.asks,
    heldBaseAt_eq hr hprice, heldBaseAt_eq hr hprice, hc, hl]
  omega

section OneCandidate

variable {terms : UnwindTerms} {bounds : Bounds} {inputs : UnwindInputs} {primary index : Nat} {reserve : Reserve}
  {w w' : Withdrawing} {data : PositionData} (hwf : inputs.WellFormed) (hdec : 7 ≤ inputs.prices.decimals)
  (hp : primaryIndex terms inputs = .ok primary) (hn : w.positions.Nonneg)
  (hr : inputs.reserves[index]? = some reserve)

include hwf hdec hn hr

/-- A withdrawal is taken just when the bounds are content with what it leaves. -/
theorem takeWithdrawal_found {amount : Int} {found : Option Withdrawing} (hpos : 0 < amount)
    (h : takeWithdrawal bounds inputs w index amount = .ok found) :
    (bounds.asks inputs w.positions ≤ collateralWith inputs w.positions index
        (reserve.leftBy (w.positions.collateral.getD index 0) amount) →
      ∃ taken, found = some taken ∧ afterWithdrawal inputs w.positions index amount = .ok taken.positions) ∧
    (collateralWith inputs w.positions index (reserve.leftBy (w.positions.collateral.getD index 0) amount) <
      bounds.asks inputs w.positions → found = none) := by
  obtain ⟨hrate, -⟩ := hwf.rates_pos index reserve hr
  simp only [takeWithdrawal, if_neg (Int.not_le.2 hpos), bind_ok_iff] at h
  obtain ⟨next, hnext, data', hdata', answer, hanswer, h⟩ := h
  obtain ⟨hagree, hn', hleft⟩ := afterWithdrawal_agree hrate hn hr hnext
  have haccepts := accepts_projected_iff hwf hdec hn' hdata' hanswer
  have hasks : bounds.asks inputs next = bounds.asks inputs w.positions := by rw [Bounds.asks, hagree.1, Bounds.asks]
  rw [hagree.collateralSum_eq, hleft, hasks] at haccepts
  cases answer with
  | true =>
    simp only [Bool.not_true, Bool.false_eq_true, ↓reduceIte, bind_ok_iff, pure_ok_iff] at h
    obtain ⟨r, -, rfl⟩ := h
    refine ⟨fun _ => ⟨_, rfl, hnext⟩, fun hlt => ?_⟩
    have hle := haccepts.1 rfl
    omega
  | false =>
    simp only [Bool.not_false, ↓reduceIte, pure_ok_iff] at h
    subst h
    exact ⟨fun hle => absurd (haccepts.2 hle) (by decide), fun _ => rfl⟩

include hp

/-- After the partial, nothing more of the candidate may go. The bounds
refused `least`, so the formula leaves more than that, and they accept what
the position stands at, so it leaves no more than is held. -/
theorem withdrawPartial_stuck (hdata : projectUnwind inputs w.positions = .ok data) {least : Int}
    (hleast : 0 ≤ least) (hheld : 0 < w.positions.collateral.getD index 0)
    (haccepted : bounds.asks inputs w.positions ≤ collateralSum inputs.reserves inputs.prices w.positions.collateral)
    (hrefused : collateralWith inputs w.positions index least < bounds.asks inputs w.positions)
    (hfloor : index = primary → primaryFloor terms reserve ≤ least)
    (h : withdrawPartial terms bounds inputs w data index = .ok w') {amount : Int} (hamount : 1 ≤ amount)
    (hlarge : index = primary → dust terms amount = .ok false) :
    collateralWith inputs w.positions index (reserve.leftBy (w'.positions.collateral.getD index 0) amount) <
      bounds.asks inputs w.positions := by
  obtain ⟨hrate, -⟩ := hwf.rates_pos index reserve hr
  obtain ⟨-, -, -, hpriced, -⟩ := calculatePositionData_sums hdata
  obtain ⟨r, price, hr', hprice⟩ := hpriced index hheld.ne'
  obtain rfl : r = reserve := Option.some.inj (hr'.symm.trans hr)
  rw [← collateralWith_self inputs w.positions index] at haccepted
  simp only [withdrawPartial, reserveAt_ok_iff.2 hr, bind_ok_iff, Except.ok.injEq, exists_eq_left', hp,
    if_neg (Int.not_le.2 hheld)] at h
  split at h
  · -- With no collateral factor every position is worth the same.
    next hfactor =>
    simp only [collateralWith, heldBaseAt_eq hr hprice, Reserve.heldBase, hfactor, Nat.cast_zero, Int.mul_zero,
      Int.zero_ediv] at haccepted hrefused
    omega
  next hfactor =>
  have hleaves : ∀ b, 0 ≤ b → (bounds.leaves r price data (w.positions.collateral.getD index 0) ≤ b ↔
      bounds.asks inputs w.positions ≤ collateralWith inputs w.positions index b) :=
    fun b => leaves_le_iff hwf.rates_pos hn hr hdata hprice hfactor
  have hlt := mt (hleaves least hleast).1 (Int.not_le.2 hrefused)
  have hle := (hleaves _ hheld.le).2 haccepted
  rw [← Int.not_le, ← hleaves _ (r.leftBy_nonneg _ _), Int.not_le]
  refine Reserve.leftBy_lt (by omega) ?_
  have hburnt := Reserve.burnt_pos hrate (show 0 < amount by omega)
  simp only [bind_ok_iff, Except.ok.injEq, exists_eq_left'] at h
  obtain ⟨goes, hgoes, h⟩ := h
  have hgoes : goes = w.positions.collateral.getD index 0 -
      bounds.leaves r price data (w.positions.collateral.getD index 0) := by
    rw [mayGo_ok hrate hfactor hprice hgoes]
    split
    · next hprimary =>
      have hkeeps := hfloor (of_decide_eq_true hprimary)
      omega
    · rfl
  split at h
  · rw [← pure_ok_iff.1 h]
    omega
  simp only [bind_ok_iff, Reserve.toAssetFromBToken, mulFloor_eq SCALAR_12_pos] at h
  obtain ⟨whole, hwhole, h⟩ := h
  have hwhole : whole = r.worth goes := narrow_ok hwhole
  simp only [backOff, bind_ok_iff] at h
  obtain ⟨small, hsmall, h⟩ := h
  cases small with
  | true =>
    rw [← pure_ok_iff.1 h, ← hgoes, ← Int.not_le, Reserve.burnt_le_iff hrate, ← hwhole]
    intro hmore
    simp only [tooSmall, if_neg (show ¬whole ≤ 0 by omega), decide_eq_true_eq] at hsmall
    split at hsmall
    · next hprimary => exact absurd (dust_mono hmore (hlarge hprimary) hsmall) (by decide)
    · cases hsmall
  | false =>
    have hpos : 0 < whole := by
      simp only [tooSmall] at hsmall
      split at hsmall
      · cases hsmall
      · omega
    have hfits : r.burnt whole ≤ goes := (Reserve.burnt_le_iff hrate).2 hwhole.le
    simp only [Bool.false_eq_true, ↓reduceIte, bind_ok_iff] at h
    obtain ⟨found, hfound, h⟩ := h
    obtain ⟨taken, rfl, hnext⟩ := (takeWithdrawal_found hwf hdec hn hr hpos hfound).1
      ((hleaves _ (r.leftBy_nonneg _ _)).1 (by simp only [Reserve.leftBy]; omega))
    rw [pure_ok_iff] at h
    subst h
    rw [(afterWithdrawal_agree hrate hn hr hnext).2.2, Reserve.leftBy]
    have hpast := Reserve.burnt_past hrate goes hamount
    rw [← hwhole] at hpast
    omega

end OneCandidate

section Reach

variable {terms : UnwindTerms} {bounds : Bounds} {inputs : UnwindInputs} {primary index : Nat}
  {w w' : Withdrawing} {data : PositionData}

theorem AgreeBut.asks_eq {p p' : Positions} (h : AgreeBut index p p') :
    bounds.asks inputs p' = bounds.asks inputs p := by
  rw [Bounds.asks, h.1, Bounds.asks]

theorem AgreeBut.erase (index : Nat) (p : Positions) :
    AgreeBut index p { p with collateral := p.collateral.erase index } := by
  refine ⟨rfl, fun i hi => ?_⟩
  dsimp only
  rw [TreeMaps.getD_erase, if_neg hi]

theorem Positions.Nonneg.erase {p : Positions} (h : p.Nonneg) (index : Nat) :
    Positions.Nonneg { p with collateral := p.collateral.erase index } := by
  refine ⟨fun i v hv => ?_, h.owed⟩
  rw [TreeMaps.getElem?_erase] at hv
  split at hv
  · cases hv
  · exact h.held i v hv

/-- A withdrawal touches its own index, and leaves no more there. -/
theorem Taken.agree (hrates : inputs.RatesPositive) (hn : w.positions.Nonneg)
    (h : Taken terms bounds inputs primary index w w') :
    AgreeBut index w.positions w'.positions ∧ w'.positions.Nonneg ∧
      w'.positions.collateral.getD index 0 ≤ w.positions.collateral.getD index 0 := by
  have hheld := getD_nonneg hn.held index
  cases h with
  | whole hne hr ha =>
    refine ⟨.erase index _, hn.erase index, ?_⟩
    dsimp only
    rw [TreeMaps.getD_erase, if_pos rfl]
    exact hheld
  | @part reserve amount next hr hpos hspare hnext ha =>
    obtain ⟨hrate, -⟩ := hrates index reserve (reserveAt_ok_iff.1 hr)
    obtain ⟨hagree, hn', hleft⟩ := afterWithdrawal_agree hrate hn (reserveAt_ok_iff.1 hr) hnext
    have hburnt := Reserve.burnt_pos hrate hpos
    refine ⟨hagree, hn', ?_⟩
    rw [hleft, Reserve.leftBy]
    omega

/-- Nothing of `index` that may be sent is accepted. -/
def Stuck (terms : UnwindTerms) (bounds : Bounds) (inputs : UnwindInputs) (primary : Nat) (p : Positions)
    (index : Nat) : Prop :=
  ∀ reserve amount, inputs.reserves[index]? = some reserve → 1 ≤ amount → 0 < p.collateral.getD index 0 →
    (index = primary → Sendable terms reserve (p.collateral.getD index 0) amount) →
    collateralWith inputs p index (reserve.leftBy (p.collateral.getD index 0) amount) < bounds.asks inputs p

/-- What is out of reach stays so while others go. -/
theorem Stuck.of_less {p p' : Positions} (h : Stuck terms bounds inputs primary p index)
    (hsame : p'.collateral.getD index 0 = p.collateral.getD index 0) (howed : p'.liabilities = p.liabilities)
    (hless : collateralSum inputs.reserves inputs.prices p'.collateral ≤
      collateralSum inputs.reserves inputs.prices p.collateral) :
    Stuck terms bounds inputs primary p' index := by
  intro reserve amount hr hpos hheld hsend
  rw [hsame] at hheld hsend ⊢
  have hlt := h reserve amount hr hpos hheld hsend
  simp only [collateralWith, Bounds.asks, howed, hsame] at hlt ⊢
  omega

section Candidates

variable (hwf : inputs.WellFormed) (hdec : 7 ≤ inputs.prices.decimals)
  (hp : primaryIndex terms inputs = .ok primary) (hn : w.positions.Nonneg)
  (hdata : projectUnwind inputs w.positions = .ok data) (hheld : 0 < w.positions.collateral.getD index 0)
  (haccepted : bounds.asks inputs w.positions ≤ collateralSum inputs.reserves inputs.prices w.positions.collateral)

include hwf hdec hp hn hdata hheld haccepted

theorem withdrawOtherCandidate_stuck (hne : index ≠ primary) (hagree : AgreeBut index w.positions w'.positions)
    (h : withdrawOtherCandidate terms bounds inputs w data index = .ok w') :
    Stuck terms bounds inputs primary w'.positions index := by
  intro reserve amount hr hpos hleft _
  simp only [withdrawOtherCandidate, bind_ok_iff] at h
  obtain ⟨_, -, data', hdata', answer, hanswer, h⟩ := h
  cases answer with
  | true =>
    simp only [↓reduceIte, pure_ok_iff] at h
    subst h
    rw [TreeMaps.getD_erase, if_pos rfl] at hleft
    omega
  | false =>
    have hwhole := accepts_projected_iff hwf hdec (hn.erase index) hdata' hanswer
    have herase := AgreeBut.erase index w.positions
    rw [herase.collateralSum_eq, herase.asks_eq, TreeMaps.getD_erase, if_pos rfl] at hwhole
    rw [hagree.collateralWith_eq, hagree.asks_eq]
    refine withdrawPartial_stuck hwf hdec hp hn hr hdata le_rfl hheld haccepted ?_ (fun heq => absurd heq hne) h hpos
      (fun heq => absurd heq hne)
    by_contra hge
    exact absurd (hwhole.2 (Int.not_lt.1 hge)) (by decide)

theorem withdrawPrimaryCandidate_stuck (hprimary : index = primary)
    (hagree : AgreeBut index w.positions w'.positions)
    (h : withdrawPrimaryCandidate terms bounds inputs w data index = .ok w') :
    Stuck terms bounds inputs primary w'.positions index := by
  intro reserve amount hr hpos hleft hsend
  subst hprimary
  have hsend := hsend rfl
  obtain ⟨hrate, -⟩ := hwf.rates_pos index reserve hr
  have hfloor0 := primaryFloor_nonneg terms hrate
  obtain ⟨hroom, hworth, hlarge⟩ := hsend.excess hrate hleft hpos
  simp only [withdrawPrimaryCandidate, bind_ok_iff] at h
  obtain ⟨excess, hexcess, h⟩ := h
  have hcases := primaryExcess_cases hrate hp hr hheld hexcess
  split at h
  · rw [pure_ok_iff] at h
    subst h
    omega
  next hexcess0 =>
  obtain ⟨hspare, rfl⟩ : 0 < w.positions.collateral.getD index 0 - primaryFloor terms reserve ∧
      excess = reserve.worth (w.positions.collateral.getD index 0 - primaryFloor terms reserve) := by
    rcases hcases with ⟨-, hzero⟩ | hcases
    · omega
    · exact hcases
  have hfits := (Reserve.burnt_le_iff hrate).2 (le_refl (reserve.worth
    (w.positions.collateral.getD index 0 - primaryFloor terms reserve)))
  simp only [bind_ok_iff] at h
  obtain ⟨small, hsmall, h⟩ := h
  cases small with
  | true =>
    rw [if_pos rfl, pure_ok_iff] at h
    subst h
    exact absurd (hlarge true hsmall) (by decide)
  | false =>
    simp only [Bool.false_eq_true, ↓reduceIte, bind_ok_iff] at h
    obtain ⟨found, hfound, h⟩ := h
    have htake := takeWithdrawal_found hwf hdec hn hr (show 0 < _ by omega) hfound
    by_cases hcontent : bounds.asks inputs w.positions ≤ collateralWith inputs w.positions index
        (reserve.leftBy (w.positions.collateral.getD index 0)
          (reserve.worth (w.positions.collateral.getD index 0 - primaryFloor terms reserve)))
    · -- The excess went, and what is left above the floor is worth nothing.
      obtain ⟨taken, rfl, hnext⟩ := htake.1 hcontent
      rw [pure_ok_iff] at h
      subst h
      have hspent := worth_left_of_excess terms (w.positions.collateral.getD index 0) hrate
      rw [← (afterWithdrawal_agree hrate hn hr hnext).2.2] at hspent
      omega
    · obtain rfl := htake.2 (Int.not_le.1 hcontent)
      rw [hagree.collateralWith_eq, hagree.asks_eq]
      refine withdrawPartial_stuck hwf hdec hp hn hr hdata (reserve.leftBy_nonneg _ _) hheld haccepted
        (Int.not_le.1 hcontent) (fun _ => ?_) h hpos fun _ => hsend.large
      rw [Reserve.leftBy]
      omega

/-- **One candidate, and nothing more of it may go.** -/
theorem withdrawCandidate_stuck (h : withdrawCandidate terms bounds inputs w data index = .ok w') :
    Stuck terms bounds inputs primary w'.positions index := by
  have hagree : AgreeBut index w.positions w'.positions := by
    rcases withdrawCandidate_cases hwf.rates_pos hp h with rfl | htaken
    · exact ⟨rfl, fun _ _ => rfl⟩
    · exact (htaken.agree hwf.rates_pos hn).1
  simp only [withdrawCandidate, hp, bind_ok_iff, Except.ok.injEq, exists_eq_left'] at h
  split at h
  · next hprimary =>
    exact withdrawPrimaryCandidate_stuck hwf hdec hp hn hdata hheld haccepted hprimary hagree h
  · next hne => exact withdrawOtherCandidate_stuck hwf hdec hp hn hdata hheld haccepted hne hagree h

end Candidates

/-! ## Step 3 -/

/-- Step 3's invariant, with the candidates still to visit. -/
structure Exhausted (terms : UnwindTerms) (bounds : Bounds) (inputs : UnwindInputs) (primary : Nat) (rest : List Nat)
    (w : Withdrawing) : Prop where
  nodup : rest.Nodup
  nonneg : w.positions.Nonneg
  accepted : Accepted bounds inputs w.positions
  held : ∀ index ∈ rest, 0 < w.positions.collateral.getD index 0
  stuck : ∀ index, index ∉ rest → Stuck terms bounds inputs primary w.positions index

theorem Taken.accepted (h : Taken terms bounds inputs primary index w w') : Accepted bounds inputs w'.positions := by
  cases h with
  | whole hne hr ha => exact ha
  | part hr hpos hspare hnext ha => exact ha

/-- A withdrawal leaves no more collateral. -/
theorem Taken.collateralSum_le (hwf : inputs.WellFormed) (hn : w.positions.Nonneg)
    (h : Taken terms bounds inputs primary index w w') :
    collateralSum inputs.reserves inputs.prices w'.positions.collateral ≤
      collateralSum inputs.reserves inputs.prices w.positions.collateral := by
  obtain ⟨hagree, hn', hle⟩ := h.agree hwf.rates_pos hn
  have hbase : heldBaseAt inputs.reserves inputs.prices index (w'.positions.collateral.getD index 0) ≤
      heldBaseAt inputs.reserves inputs.prices index (w.positions.collateral.getD index 0) := by
    refine heldBaseAt_mono (fun _ => rfl) (getD_nonneg hn'.held index) hle
      (fun i r hr => (hwf.rates_pos i r hr).1.le) fun r r' hr hr' _ => ?_
    rw [hr] at hr'
    cases hr'
    exact le_rfl
  rw [hagree.collateralSum_eq, collateralWith]
  omega

theorem withdrawCandidate_exhausted {rest : List Nat} (hwf : inputs.WellFormed) (hdec : 7 ≤ inputs.prices.decimals)
    (hp : primaryIndex terms inputs = .ok primary) (hw : Exhausted terms bounds inputs primary (index :: rest) w)
    (hdata : projectUnwind inputs w.positions = .ok data)
    (h : withdrawCandidate terms bounds inputs w data index = .ok w') :
    Exhausted terms bounds inputs primary rest w' := by
  obtain ⟨hnot, hnodup⟩ := List.nodup_cons.1 hw.nodup
  have hstuck := withdrawCandidate_stuck hwf hdec hp hw.nonneg hdata (hw.held index (by simp))
    (hw.accepted.asks_le hwf hdec hw.nonneg) h
  rcases withdrawCandidate_cases hwf.rates_pos hp h with rfl | htaken
  · refine ⟨hnodup, hw.nonneg, hw.accepted, fun i hi => hw.held i (by simp [hi]), fun i hi => ?_⟩
    by_cases heq : i = index
    · rw [heq]
      exact hstuck
    · exact hw.stuck i (by simp [heq, hi])
  · obtain ⟨hagree, hn', -⟩ := htaken.agree hwf.rates_pos hw.nonneg
    have hless := htaken.collateralSum_le hwf hw.nonneg
    refine ⟨hnodup, hn', htaken.accepted, fun i hi => ?_, fun i hi => ?_⟩
    · rw [hagree.2 i fun heq => hnot (heq ▸ hi)]
      exact hw.held i (by simp [hi])
    · by_cases heq : i = index
      · rw [heq]
        exact hstuck
      · exact (hw.stuck i (by simp [heq, hi])).of_less (hagree.2 i (Ne.symm heq)) hagree.1 hless

/-- The walk visits every candidate: what it stands at is accepted
throughout, so it never stops for being under. -/
theorem walkCandidates_exhausted (hwf : inputs.WellFormed) (hdec : 7 ≤ inputs.prices.decimals)
    (hp : primaryIndex terms inputs = .ok primary) {order : List Nat}
    (hw : Exhausted terms bounds inputs primary order w) (h : walkCandidates terms bounds inputs order w = .ok w') :
    Exhausted terms bounds inputs primary [] w' := by
  induction order generalizing w with
  | nil =>
    simp only [walkCandidates, Except.ok.injEq] at h
    exact h ▸ hw
  | cons index rest ih =>
    obtain ⟨data, hdata, hcases⟩ := walkCandidates_cons h
    obtain ⟨data', hdata', haccepts⟩ := hw.accepted
    obtain rfl : data = data' := Except.ok.inj (hdata.symm.trans hdata')
    obtain ⟨hunder, -⟩ | ⟨-, mid, hmid, h⟩ := hcases
    · cases hunder.symm.trans (Bounds.accepts_true haccepts).1
    · exact ih (withdrawCandidate_exhausted hwf hdec hp hw hdata hmid) h

end Reach

/-! ## Step 2 -/

/-- Step 2's invariant, with the indices still to visit. -/
structure Emptied (primary : Nat) (rest : List Nat) (w : Withdrawing) : Prop where
  nonneg : w.positions.Nonneg
  empty : ∀ index, index ≠ primary → index ∉ rest → w.positions.collateral.getD index 0 = 0

theorem withdrawFreely_emptied {inputs : UnwindInputs} {primary index : Nat} {rest : List Nat}
    {w w' : Withdrawing} (hw : Emptied primary (index :: rest) w)
    (h : withdrawFreely inputs primary w index = .ok w') : Emptied primary rest w' := by
  obtain ⟨rfl, rfl⟩ | ⟨-, reserve, -, rfl⟩ := withdrawFreely_cases h
  · exact ⟨hw.nonneg, fun i hne hi => hw.empty i hne (by simp [hne, hi])⟩
  · refine ⟨hw.nonneg.erase index, fun i hne hi => ?_⟩
    dsimp only
    rw [TreeMaps.getD_erase]
    split
    · rfl
    · next hother => exact hw.empty i hne (by simp [Ne.symm hother, hi])

/-- Step 2 leaves nothing of the primary that may be sent. -/
theorem withdrawPrimary_spent {terms : UnwindTerms} {inputs : UnwindInputs} {primary : Nat} {reserve : Reserve}
    {w w' : Withdrawing} {amount : Int} (hwf : inputs.WellFormed) (hp : primaryIndex terms inputs = .ok primary)
    (hr : inputs.reserves[primary]? = some reserve) (hn : w.positions.Nonneg)
    (h : withdrawPrimary terms inputs primary w = .ok w') (hpos : 1 ≤ amount)
    (hheld : 0 < w'.positions.collateral.getD primary 0) :
    ¬Sendable terms reserve (w'.positions.collateral.getD primary 0) amount := by
  intro hsend
  obtain ⟨hrate, -⟩ := hwf.rates_pos primary reserve hr
  obtain ⟨hroom, hworth, hlarge⟩ := hsend.excess hrate hheld hpos
  cases withdrawPrimary_ends h with
  | empty hnow => omega
  | whole =>
    rw [TreeMaps.getD_erase, if_pos rfl] at hheld
    omega
  | stays hnow _ hexcess hsmall =>
    rcases primaryExcess_cases hrate hp hr hnow hexcess with ⟨hless, -⟩ | ⟨hspare, rfl⟩
    · omega
    rcases hsmall with hnone | hdust
    · omega
    · exact absurd (hlarge true hdust) (by decide)
  | part hnow _ hexcess hexcess0 hnext =>
    rcases primaryExcess_cases hrate hp hr hnow hexcess with ⟨-, hzero⟩ | ⟨hspare, rfl⟩
    · omega
    have hspent := worth_left_of_excess terms (w.positions.collateral.getD primary 0) hrate
    rw [← (afterWithdrawal_agree hrate hn hr hnext).2.2] at hspent
    dsimp only at hworth
    omega

theorem AgreeBut.refl (index : Nat) (p : Positions) : AgreeBut index p p := ⟨rfl, fun _ _ => rfl⟩

theorem withdrawPrimary_agree {terms : UnwindTerms} {inputs : UnwindInputs} {primary : Nat} {w w' : Withdrawing}
    (hwf : inputs.WellFormed) (hn : w.positions.Nonneg) (h : withdrawPrimary terms inputs primary w = .ok w') :
    AgreeBut primary w.positions w'.positions ∧ w'.positions.Nonneg := by
  cases withdrawPrimary_ends h with
  | empty => exact ⟨.refl primary _, hn⟩
  | stays => exact ⟨.refl primary _, hn⟩
  | whole => exact ⟨.erase primary w.positions, hn.erase primary⟩
  | part hheld hr hexcess hpos hnext =>
    have hr := reserveAt_ok_iff.1 hr
    obtain ⟨hagree, hn', -⟩ := afterWithdrawal_agree (hwf.rates_pos primary _ hr).1 hn hr hnext
    exact ⟨hagree, hn'⟩

/-! ## The plan -/

/-- The plan's own states: the positions it projects after the repays, and
where its withdrawals end. -/
def planStates (terms : UnwindTerms) (inputs : UnwindInputs) : Except MathError (Positions × Withdrawing) := do
  let repaid ← repay inputs
  let (w, _) ← withdrawCollateral terms inputs { positions := repaid.positions, actions := repaid.actions }
  return (repaid.positions, w)

/-- A `Withdraw` of `amount` of something still held that the bounds would
accept; of the primary, one that is no dust and keeps its minimum. -/
structure Further (terms : UnwindTerms) (bounds : Bounds) (inputs : UnwindInputs) (last : Positions) (index : Nat)
    (amount : Int) (next : Positions) : Prop where
  pos : 1 ≤ amount
  held : 0 < last.collateral.getD index 0
  after : afterWithdrawal inputs last index amount = .ok next
  accepted : Accepted bounds inputs next
  primary : inputs.assetIndex[terms.primaryAsset]? = some index → dust terms amount = .ok false ∧
    ∀ reserve, inputs.reserves[index]? = some reserve →
      terms.minPrimaryCollateral ≤ reserve.worth (next.collateral.getD index 0)

theorem repay_nonneg {inputs : UnwindInputs} {repaid : Repaying} (hwf : inputs.WellFormed)
    (h : repay inputs = .ok repaid) : repaid.positions.Nonneg := by
  have hrepaid := repay_repaid hwf h
  obtain ⟨real, -, hcov, -⟩ := hrepaid.run
  refine ⟨fun i v hv => hwf.collateral_nonneg i v (hrepaid.collateral ▸ hv), fun i => ?_⟩
  have howed := hcov.owed i
  omega

/-- A further withdrawal of the primary is one that may be sent, but for a
remainder worth nothing. -/
theorem Further.sendable {terms : UnwindTerms} {bounds : Bounds} {inputs : UnwindInputs} {last next : Positions}
    {index : Nat} {amount : Int} {reserve : Reserve} (hwf : inputs.WellFormed) (hn : last.Nonneg)
    (hr : inputs.reserves[index]? = some reserve)
    (hprimary : inputs.assetIndex[terms.primaryAsset]? = some index)
    (h : Further terms bounds inputs last index amount next)
    (hworth : 0 < terms.minPrimaryCollateral ∨ 1 ≤ reserve.worth (last.collateral.getD index 0)) :
    Sendable terms reserve (last.collateral.getD index 0) amount := by
  obtain ⟨hrate, -⟩ := hwf.rates_pos index reserve hr
  obtain ⟨hlarge, hkeeps⟩ := h.primary hprimary
  have hleft := (afterWithdrawal_agree hrate hn hr h.after).2.2
  have hnonneg := reserve.leftBy_nonneg (last.collateral.getD index 0) amount
  have hmin := hkeeps reserve hr
  refine ⟨hlarge, ?_, hworth⟩
  rw [hleft] at hmin
  rw [primaryFloor_le_iff hrate]
  exact max_le hmin (Reserve.worth_nonneg hrate hnonneg)

/-- If nothing that may be sent is accepted, what is accepted is such a
remainder. -/
theorem Further.remainder {terms : UnwindTerms} {bounds : Bounds} {inputs : UnwindInputs} {primary : Nat}
    {last : Positions} (hwf : inputs.WellFormed) (hn : last.Nonneg) (hp : primaryIndex terms inputs = .ok primary)
    (hno : ∀ index reserve amount next, inputs.reserves[index]? = some reserve →
      (index = primary → Sendable terms reserve (last.collateral.getD index 0) amount) →
      ¬Further terms bounds inputs last index amount next)
    {index : Nat} {amount : Int} {next : Positions} (h : Further terms bounds inputs last index amount next) :
    inputs.assetIndex[terms.primaryAsset]? = some index ∧ terms.minPrimaryCollateral ≤ 0 ∧
      ∀ reserve, inputs.reserves[index]? = some reserve → reserve.worth (last.collateral.getD index 0) = 0 := by
  have hp := primaryIndex_ok hp
  have hafter := h.after
  simp only [afterWithdrawal, bind_ok_iff] at hafter
  obtain ⟨reserve, hr, -⟩ := hafter
  have hr := reserveAt_ok_iff.1 hr
  obtain rfl : index = primary := by
    by_contra hne
    exact hno index reserve amount next hr (fun heq => absurd heq hne) h
  have hworth : ¬(0 < terms.minPrimaryCollateral ∨ 1 ≤ reserve.worth (last.collateral.getD index 0)) := fun hworth =>
    hno index reserve amount next hr (fun _ => h.sendable hwf hn hr hp hworth) h
  have hnonneg := Reserve.worth_nonneg (hwf.rates_pos index reserve hr).1 h.held.le
  refine ⟨hp, by omega, fun reserve' hr' => ?_⟩
  obtain rfl : reserve' = reserve := Option.some.inj (hr'.symm.trans hr)
  omega

/-- Nothing further of what is stuck. -/
theorem Stuck.not_further {terms : UnwindTerms} {bounds : Bounds} {inputs : UnwindInputs} {primary index : Nat}
    {last next : Positions} {amount : Int} {reserve : Reserve} (hwf : inputs.WellFormed)
    (hdec : 7 ≤ inputs.prices.decimals) (hn : last.Nonneg) (hr : inputs.reserves[index]? = some reserve)
    (hstuck : Stuck terms bounds inputs primary last index)
    (hsend : index = primary → Sendable terms reserve (last.collateral.getD index 0) amount) :
    ¬Further terms bounds inputs last index amount next := by
  intro h
  obtain ⟨hrate, -⟩ := hwf.rates_pos index reserve hr
  obtain ⟨hagree, hn', hleft⟩ := afterWithdrawal_agree hrate hn hr h.after
  have hasks := h.accepted.asks_le hwf hdec hn'
  rw [hagree.collateralSum_eq, hagree.asks_eq, hleft] at hasks
  have hlt := hstuck reserve amount hr h.pos h.held hsend
  omega

/-- Where step 2 ends, the non-primary collateral is gone, and nothing of
the primary may be sent. -/
theorem withdrawFree_spent {terms : UnwindTerms} {inputs : UnwindInputs} {primary : Nat} {w w' : Withdrawing}
    (hwf : inputs.WellFormed) (hp : primaryIndex terms inputs = .ok primary) (hn : w.positions.Nonneg)
    (h : withdrawFree terms inputs w = .ok w') :
    w'.positions.Nonneg ∧ (∀ index, index ≠ primary → w'.positions.collateral.getD index 0 = 0) ∧
      ∀ reserve amount, inputs.reserves[primary]? = some reserve → 1 ≤ amount →
        0 < w'.positions.collateral.getD primary 0 →
        ¬Sendable terms reserve (w'.positions.collateral.getD primary 0) amount := by
  simp only [withdrawFree, hp, bind_ok_iff, Except.ok.injEq, exists_eq_left'] at h
  obtain ⟨mid, hmid, h⟩ := h
  have hstart : Emptied primary w.positions.collateral.keys w := by
    refine ⟨hn, fun i _ hi => Std.ExtTreeMap.getD_eq_fallback ?_⟩
    rw [← Std.ExtTreeMap.mem_keys]
    exact hi
  have hempty := foldlM_inv (Emptied primary) (fun _ _ _ _ => withdrawFreely_emptied) hstart hmid
  obtain ⟨hagree, hn'⟩ := withdrawPrimary_agree hwf hempty.nonneg h
  refine ⟨hn', fun i hne => ?_, fun reserve amount hr => withdrawPrimary_spent hwf hp hr hempty.nonneg h⟩
  rw [hagree.2 i hne.symm]
  exact hempty.empty i hne (by simp)

/-- Where step 3 ends, every index is stuck. -/
theorem withdrawWithinFloor_stuck {terms : UnwindTerms} {bounds : Bounds} {inputs : UnwindInputs} {primary : Nat}
    {w w' : Withdrawing} {health : Option Int} (hwf : inputs.WellFormed) (hdec : 7 ≤ inputs.prices.decimals)
    (hp : primaryIndex terms inputs = .ok primary) (hb : Bounds.of terms = .ok bounds) (hn : w.positions.Nonneg)
    (haccepted : Accepted bounds inputs w.positions) (h : withdrawWithinFloor terms inputs w = .ok (w', health)) :
    w'.positions.Nonneg ∧ ∀ index, Stuck terms bounds inputs primary w'.positions index := by
  simp only [withdrawWithinFloor, hb, bind_ok_iff, pure_ok_iff, Except.ok.injEq, exists_eq_left', Prod.mk.injEq] at h
  obtain ⟨order, horder, mid, hwalk, data, -, health', -, rfl, -⟩ := h
  obtain ⟨hnodup, hmem⟩ := candidates_ok horder
  have hstart : Exhausted terms bounds inputs primary order w := by
    refine ⟨hnodup, hn, haccepted, fun i hi => (hmem i).1 hi, fun i hi reserve amount _ _ hheld => ?_⟩
    exact absurd ((hmem i).2 hheld) hi
  have hend := walkCandidates_exhausted hwf hdec hp hstart hwalk
  exact ⟨hend.nonneg, fun i => hend.stuck i (by simp)⟩

/-- **`plan_unwind` strands nothing.** Where the positions it projects after
the repays owe nothing or are within the bounds, the bounds accept no further
withdrawal of what its end state still holds, but for a remainder of the
primary that no minimum asks for and that is worth nothing; and where nothing
is owed, every other collateral is withdrawn. -/
theorem planUnwind_maximal {terms : UnwindTerms} {inputs : UnwindInputs} {plan : UnwindPlan}
    (hwf : inputs.WellFormed) (hdec : 7 ≤ inputs.prices.decimals) (h : planUnwind terms inputs = .ok plan) :
    ∃ repaid w, planStates terms inputs = .ok (repaid, w) ∧ plan.actions = w.actions ∧
      (repaid.liabilities.isEmpty = true → ∀ index, inputs.assetIndex[terms.primaryAsset]? ≠ some index →
        w.positions.collateral.getD index 0 = 0) ∧
      ∀ bounds, Bounds.of terms = .ok bounds →
        repaid.liabilities.isEmpty = true ∨ Accepted bounds inputs repaid →
        ∀ index amount next, Further terms bounds inputs w.positions index amount next →
          inputs.assetIndex[terms.primaryAsset]? = some index ∧ terms.minPrimaryCollateral ≤ 0 ∧
            ∀ reserve, inputs.reserves[index]? = some reserve →
              reserve.worth (w.positions.collateral.getD index 0) = 0 := by
  simp only [planUnwind, bind_ok_iff, pure_ok_iff] at h
  obtain ⟨repaid, hrepay, remaining, -, ⟨w, health⟩, hw, rfl⟩ := h
  have hn := repay_nonneg hwf hrepay
  have hstates : planStates terms inputs = .ok (repaid.positions, w) := by
    simp only [planStates, hrepay, hw, bind_ok_iff, Except.ok.injEq, exists_eq_left', pure_ok_iff]
  refine ⟨repaid.positions, w, hstates, rfl, ?_⟩
  simp only [withdrawCollateral] at hw
  split at hw
  · simp only [map_ok_iff, Prod.mk.injEq] at hw
    obtain ⟨w', hfree, rfl, -⟩ := hw
    obtain ⟨primary, hp⟩ : ∃ primary, primaryIndex terms inputs = .ok primary := by
      simp only [withdrawFree, bind_ok_iff] at hfree
      obtain ⟨primary, hp, -⟩ := hfree
      exact ⟨primary, hp⟩
    obtain ⟨hn', hempty, hspent⟩ := withdrawFree_spent hwf hp hn hfree
    refine ⟨fun _ index hne => hempty index fun heq => hne (heq ▸ primaryIndex_ok hp), fun bounds _ _ index amount next hf =>
      hf.remainder hwf hn' hp fun i reserve a p hr hsend hf => ?_⟩
    by_cases heq : i = primary
    · subst heq
      exact hspent reserve a hr hf.pos hf.held (hsend rfl)
    · have hheld := hf.held
      rw [hempty i heq] at hheld
      omega
  · next hsome =>
    refine ⟨fun hnone => absurd hnone hsome, fun bounds hb hstart index amount next hf => ?_⟩
    obtain ⟨primary, hp⟩ : ∃ primary, primaryIndex terms inputs = .ok primary := by
      simp only [withdrawWithinFloor, candidates, bind_ok_iff] at hw
      obtain ⟨_, -, order, ⟨primary, hp, -⟩, -⟩ := hw
      exact ⟨primary, hp⟩
    obtain ⟨hn', hstuck⟩ := withdrawWithinFloor_stuck hwf hdec hp hb hn (hstart.resolve_left hsome) hw
    exact hf.remainder hwf hn' hp fun i reserve a p hr hsend =>
      (hstuck i).not_further hwf hdec hn' hr hsend

/-- The sample position is within the bounds after its repay, and nothing
can follow its unwind. -/
theorem planUnwind_maximal_sample :
    ∃ plan bounds repaid w, planUnwind sampleUnwindTerms sampleUnwindInputs = .ok plan ∧
      Bounds.of sampleUnwindTerms = .ok bounds ∧ planStates sampleUnwindTerms sampleUnwindInputs = .ok (repaid, w) ∧
      Accepted bounds sampleUnwindInputs repaid ∧
      ∀ index amount next, ¬Further sampleUnwindTerms bounds sampleUnwindInputs w.positions index amount next := by
  have hok : (planUnwind sampleUnwindTerms sampleUnwindInputs).isOk = true := by decide +kernel
  have haccepts : (do
      let bounds ← Bounds.of sampleUnwindTerms
      let (repaid, _) ← planStates sampleUnwindTerms sampleUnwindInputs
      bounds.accepts (← projectUnwind sampleUnwindInputs repaid)) = .ok true := by decide +kernel
  simp only [bind_ok_iff] at haccepts
  obtain ⟨bounds, hb, ⟨repaid, w⟩, hstates, data, hdata, hanswer⟩ := haccepts
  have haccepted : Accepted bounds sampleUnwindInputs repaid := ⟨data, hdata, hanswer⟩
  cases hplan : planUnwind sampleUnwindTerms sampleUnwindInputs with
  | error e => rw [hplan] at hok; cases hok
  | ok plan =>
    obtain ⟨repaid', w', hstates', -, -, hnone⟩ :=
      planUnwind_maximal sampleUnwindInputs_wellFormed (by decide) hplan
    rw [hstates] at hstates'
    cases hstates'
    refine ⟨plan, bounds, repaid, w, rfl, hb, hstates, haccepted, fun index amount next hf => ?_⟩
    obtain ⟨-, hmin, -⟩ := hnone bounds hb (.inr haccepted) index amount next hf
    exact absurd hmin (by decide)

/-- USDC at a b-rate of one half, so that one b-token is worth nothing. -/
def crumbReserves : BTreeMap Nat Reserve :=
  sampleReserves.insert 0 { sampleReserve "USDC" 0 9500000 9500000 with
    data := { (sampleReserve "USDC" 0 9500000 9500000).data with bRate := 500000000000 } }

/-- A single b-token of the primary, and XLM behind a debt the wallet cannot
repay. -/
def crumbInputs : UnwindInputs where
  reserves := crumbReserves
  assetIndex := sampleAssetIndex
  prices := samplePrices
  positions := { collateral := (∅ : BTreeMap Nat Int).insert 0 1 |>.insert 1 80000000000
                 liabilities := (∅ : BTreeMap Nat Int).insert 0 400000000 }
  wallet := ∅

/-- The operator asks for no primary collateral. -/
def crumbTerms : UnwindTerms := { sampleUnwindTerms with minPrimaryCollateral := 0 }

theorem crumbInputs_wellFormed : crumbInputs.WellFormed where
  collateral_nonneg := fun index held h => by
    simp only [crumbInputs, TreeMaps.getElem?_insert] at h
    split at h
    · cases h; decide
    · split at h
      · cases h; decide
      · simp at h
  liabilities_nonneg := fun index owed h => by
    simp only [crumbInputs, TreeMaps.getElem?_insert] at h
    split at h
    · cases h; decide
    · simp at h
  rates_pos := fun index reserve h => by
    simp only [crumbInputs, crumbReserves, TreeMaps.getElem?_insert] at h
    split at h
    · cases h; exact ⟨by decide, by decide⟩
    · rcases sampleReserves_cases h with ⟨-, rfl⟩ | ⟨-, rfl⟩ <;> exact ⟨by decide, by decide⟩
  asset_index := fun index reserve h => by
    simp only [crumbInputs, crumbReserves, TreeMaps.getElem?_insert] at h
    split at h
    · next heq => cases h; subst heq; decide
    · rcases sampleReserves_cases h with ⟨rfl, rfl⟩ | ⟨rfl, rfl⟩ <;> decide

/-- The plan stops at the b-token that is worth nothing, and the bounds would
accept a withdrawal of one unit of it, which leaves nothing of the primary. -/
theorem unwind_leaves_crumb :
    crumbInputs.WellFormed ∧ 7 ≤ crumbInputs.prices.decimals ∧
    ∃ plan bounds repaid w next, planUnwind crumbTerms crumbInputs = .ok plan ∧ Bounds.of crumbTerms = .ok bounds ∧
      planStates crumbTerms crumbInputs = .ok (repaid, w) ∧ Accepted bounds crumbInputs repaid ∧
      Further crumbTerms bounds crumbInputs w.positions 0 1 next := by
  refine ⟨crumbInputs_wellFormed, by decide, ?_⟩
  have hrun : (do
      let plan ← planUnwind crumbTerms crumbInputs
      let bounds ← Bounds.of crumbTerms
      let (repaid, w) ← planStates crumbTerms crumbInputs
      let before ← bounds.accepts (← projectUnwind crumbInputs repaid)
      let next ← afterWithdrawal crumbInputs w.positions 0 1
      let after ← bounds.accepts (← projectUnwind crumbInputs next)
      pure (plan.actions, before, after, w.positions.collateral.getD 0 0, next.collateral.getD 0 0)) =
      .ok ([.withdraw "XLM" 77173052625], true, true, 1, 0) := by decide +kernel
  simp only [bind_ok_iff, pure_ok_iff, Prod.mk.injEq] at hrun
  obtain ⟨plan, hplan, bounds, hb, ⟨repaid, w⟩, hstates, data, hdata, before, hbefore, next, hnext, data', hdata', after,
    hafter, -, rfl, rfl, hheld, hleft⟩ := hrun
  refine ⟨plan, bounds, repaid, w, next, hplan, hb, hstates, ⟨data, hdata, hbefore⟩, le_rfl, ?_, hnext,
    ⟨data', hdata', hafter⟩, fun _ => ⟨by decide, fun reserve _ => ?_⟩⟩
  · rw [hheld]
    decide
  · rw [hleft]
    simp [crumbTerms, Reserve.worth]

end BlendLiquidator
