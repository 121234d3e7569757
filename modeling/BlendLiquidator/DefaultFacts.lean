/-
The projected default is pessimistic (`project_default`).

Each named reserve goes through the set-off and the charge once, and no other
is touched. Both steps round against the suppliers: the set-off burns b-tokens
worth at least the debt it repays, and the charge takes from the rate at least
the debt it destroys. So no rate rises, and unless the charge takes more than
the rate holds, a reserve's surplus does not grow.

A position of positive amounts is then worth no more on the outcome than it was
before, and its debts, which no default touches, weigh the same.
-/
import BlendLiquidator.Accrual

namespace BlendLiquidator

open Results IntDiv

/-! ## One reserve -/

/-- What suppliers could be paid beyond what borrowers owe. -/
def Reserve.surplus (r : Reserve) : Int := r.supplied - r.borrowed

/-- The charge of what the set-off leaves owed is more than the rate holds. -/
def Clamps (reserve : Reserve) (dTokens claim : Int) : Prop :=
  ∃ mid owed amount loss, setOff reserve dTokens claim = .ok (mid, owed) ∧ 0 < owed ∧ 0 < mid.data.bSupply ∧
    mid.toAssetFromDToken owed = .ok amount ∧ divCeil amount mid.data.bSupply SCALAR_12 = .ok loss ∧
    mid.data.bRate < loss

section One

variable {r mid r' : Reserve} {dTokens claim owed : Int}

/-- The b-tokens burnt are worth at least the debt they repay. -/
theorem setOff_surplus {bTokens repaid : Int} {bRate dRate : Int} (hdRate : 0 < dRate)
    (hrepaid : repaid ≤ bTokens * bRate / SCALAR_12 * SCALAR_12 / dRate) (bSupply dSupply : Int) :
    (bSupply - bTokens) * bRate / SCALAR_12 - ceilDiv ((dSupply - repaid) * dRate) SCALAR_12 ≤
      bSupply * bRate / SCALAR_12 - ceilDiv (dSupply * dRate) SCALAR_12 := by
  have hcovered : ceilDiv (repaid * dRate) SCALAR_12 ≤ bTokens * bRate / SCALAR_12 := by
    rw [ceilDiv_le_iff SCALAR_12_pos]
    exact (Int.le_ediv_iff_mul_le hdRate).1 hrepaid
  have hsupply : (bSupply - bTokens) * bRate / SCALAR_12 + bTokens * bRate / SCALAR_12 ≤ bSupply * bRate / SCALAR_12 := by
    refine (add_ediv_le SCALAR_12_pos).trans (le_of_eq ?_)
    rw [← Int.add_mul, Int.sub_add_cancel]
  have hdebt : ceilDiv (dSupply * dRate) SCALAR_12 ≤
      ceilDiv ((dSupply - repaid) * dRate) SCALAR_12 + ceilDiv (repaid * dRate) SCALAR_12 := by
    refine le_trans (le_of_eq ?_) (ceilDiv_add_le SCALAR_12_pos)
    rw [← Int.add_mul, Int.sub_add_cancel]
  omega

theorem divisor_ne_zero {x y z v : Int} {rounding : Rounding} (h : mulDiv x y z rounding = .ok v) : z ≠ 0 := by
  rintro rfl
  simp [mulDiv] at h

/-- The set-off moves no rate, repays what it takes off the debt, and lets no
surplus grow. -/
theorem setOff_spec (hdRate : 0 ≤ r.data.dRate) (hd : 0 ≤ dTokens)
    (h : setOff r dTokens claim = .ok (mid, owed)) :
    mid.debtTerms = r.debtTerms ∧ mid.data.bRate = r.data.bRate ∧ 0 ≤ owed ∧
      mid.data.dSupply = r.data.dSupply - (dTokens - owed) ∧
      (0 ≤ r.data.bSupply → claim ≤ r.data.bSupply → 0 ≤ mid.data.bSupply) ∧ mid.surplus ≤ r.surplus := by
  have hkept := setOff_kept h
  refine ⟨hkept.1, hkept.2, ?_⟩
  have hnothing : (r, dTokens) = (mid, owed) →
      0 ≤ owed ∧ mid.data.dSupply = r.data.dSupply - (dTokens - owed) ∧
        (0 ≤ r.data.bSupply → claim ≤ r.data.bSupply → 0 ≤ mid.data.bSupply) ∧ mid.surplus ≤ r.surplus := by
    intro heq
    cases heq
    exact ⟨hd, by omega, fun h _ => h, le_rfl⟩
  simp only [setOff] at h
  split at h
  · next hclaim =>
    simp only [bind_ok_iff] at h
    obtain ⟨assets, -, up, -, covered, hcovered, down, hdown, h⟩ := h
    split at h
    · simp only [bind_ok_iff, pure_ok_iff, Prod.mk.injEq] at h
      obtain ⟨bSupply, hbSupply, dSupply, hdSupply, left, hleft, rfl, rfl⟩ := h
      have hdRate : 0 < r.data.dRate := lt_of_le_of_ne hdRate (Ne.symm (divisor_ne_zero hdown))
      simp only [Reserve.toAssetFromBToken, mulFloor_eq SCALAR_12_pos] at hcovered
      simp only [Reserve.toDTokenDown, divFloor_eq hdRate] at hdown
      have hdown := narrow_ok hdown
      rw [narrow_ok hcovered] at hdown
      have hbSupply := narrow_ok hbSupply
      have hdSupply := narrow_ok hdSupply
      have hleft := narrow_ok hleft
      refine ⟨by omega, by dsimp only; omega, fun _ _ => by dsimp only; omega, ?_⟩
      simp only [Reserve.surplus, Reserve.supplied, Reserve.worth, Reserve.borrowed, hbSupply, hdSupply]
      refine setOff_surplus hdRate ?_ _ _
      rw [← hdown]
      exact min_le_right _ _
    · exact hnothing (pure_ok_iff.1 h)
  · exact hnothing (pure_ok_iff.1 h)

/-- The charge lowers the rate, or leaves it where nobody supplies; the surplus
does not grow where the rate holds the whole charge. -/
theorem destroyDebt_spec (hbRate : 0 ≤ r.data.bRate) (hdRate : 0 ≤ r.data.dRate) (howed : 0 < owed)
    (h : destroyDebt r owed = .ok r') :
    r'.debtTerms = r.debtTerms ∧ r'.data.bRate ≤ r.data.bRate ∧ r'.data.bSupply = r.data.bSupply ∧
      r'.data.dSupply = r.data.dSupply - owed ∧
      ((∀ amount loss, r.toAssetFromDToken owed = .ok amount → divCeil amount r.data.bSupply SCALAR_12 = .ok loss →
        loss ≤ r.data.bRate) → 0 < r.data.bSupply → r'.surplus ≤ r.surplus) := by
  simp only [destroyDebt, bind_ok_iff] at h
  obtain ⟨dSupply, hdSupply, h⟩ := h
  have hdSupply := narrow_ok hdSupply
  split at h
  · next hsupply =>
    simp only [bind_ok_iff, pure_ok_iff] at h
    obtain ⟨amount, hamount, loss, hloss, left, hleft, rfl⟩ := h
    have hamountEq : amount = ceilDiv (owed * r.data.dRate) SCALAR_12 :=
      narrow_ok ((mulCeil_eq SCALAR_12_pos).symm.trans hamount)
    have hlossEq : loss = ceilDiv (amount * SCALAR_12) r.data.bSupply :=
      narrow_ok ((divCeil_eq hsupply).symm.trans hloss)
    have hleft := narrow_ok hleft
    have hamount0 : 0 ≤ amount := by
      rw [hamountEq]
      exact ceilDiv_nonneg SCALAR_12_pos (Int.mul_nonneg howed.le hdRate)
    have hloss0 : 0 ≤ loss := by
      rw [hlossEq]
      exact ceilDiv_nonneg hsupply (Int.mul_nonneg hamount0 SCALAR_12_pos.le)
    refine ⟨rfl, ?_, rfl, hdSupply, fun hholds _ => ?_⟩
    · dsimp only
      omega
    have hfits := hholds amount loss hamount hloss
    have hrate : max left 0 = r.data.bRate - loss := by omega
    -- the suppliers are charged at least the debt that is destroyed
    have hcharge : amount * SCALAR_12 ≤ r.data.bSupply * loss := by
      rw [Int.mul_comm r.data.bSupply, hlossEq]
      exact le_ceilDiv_mul hsupply
    have hworth : r.data.bSupply * (r.data.bRate - loss) / SCALAR_12 ≤
        r.data.bSupply * r.data.bRate / SCALAR_12 - amount := by
      have hmul : r.data.bSupply * (r.data.bRate - loss) ≤ r.data.bSupply * r.data.bRate - amount * SCALAR_12 := by
        rw [Int.mul_sub]
        omega
      refine (Int.ediv_le_ediv SCALAR_12_pos hmul).trans (le_of_eq ?_)
      rw [Int.sub_ediv_of_dvd _ (Int.dvd_mul_left _ _), Int.mul_ediv_cancel _ SCALAR_12_pos.ne']
    have hdebt : ceilDiv (r.data.dSupply * r.data.dRate) SCALAR_12 ≤
        ceilDiv ((r.data.dSupply - owed) * r.data.dRate) SCALAR_12 + amount := by
      rw [hamountEq]
      refine le_trans (le_of_eq ?_) (ceilDiv_add_le SCALAR_12_pos)
      rw [← Int.add_mul, Int.sub_add_cancel]
    simp only [Reserve.surplus, Reserve.supplied, Reserve.worth, Reserve.borrowed, hrate, hdSupply]
    omega
  · next hnone =>
    rw [pure_ok_iff] at h
    subst h
    exact ⟨rfl, le_rfl, rfl, hdSupply, fun _ hsupply => absurd hsupply hnone⟩

/-- What the default path leaves of a reserve that a debt names. -/
structure Charged (dTokens claim : Int) (r r' : Reserve) : Prop where
  terms : r'.debtTerms = r.debtTerms
  bRate : r'.data.bRate ≤ r.data.bRate
  dSupply : r'.data.dSupply = r.data.dSupply - dTokens
  surplus : ¬Clamps r dTokens claim → claim ≤ r.data.bSupply → r'.data.bSupply ≠ 0 → r'.surplus ≤ r.surplus

/-- A reserve with no negative data the default path reads. -/
structure Reserve.Nonneg (r : Reserve) : Prop where
  dRate : 0 ≤ r.data.dRate
  bRate : 0 ≤ r.data.bRate
  bSupply : 0 ≤ r.data.bSupply

/-- A set-off that leaves nothing owed is all there is. -/
theorem Charged.of_setOff (hr : r.Nonneg) (hd : 0 ≤ dTokens) (h : setOff r dTokens claim = .ok (mid, owed))
    (howed : ¬0 < owed) : Charged dTokens claim r mid := by
  obtain ⟨hterms, hbRate, howed0, hdSupply, -, hsurplus⟩ := setOff_spec hr.dRate hd h
  exact ⟨hterms, hbRate.le, by omega, fun _ _ _ => hsurplus⟩

theorem Charged.of_destroyDebt (hr : r.Nonneg) (hd : 0 ≤ dTokens) (h : setOff r dTokens claim = .ok (mid, owed))
    (howed : 0 < owed) (h' : destroyDebt mid owed = .ok r') : Charged dTokens claim r r' := by
  obtain ⟨hterms, hbRate, -, hdSupply, hbSupply, hsurplus⟩ := setOff_spec hr.dRate hd h
  have hdRate : mid.data.dRate = r.data.dRate := congrArg (fun terms => terms.2.2) hterms
  obtain ⟨hterms', hbRate', hsame, hdSupply', hsurplus'⟩ :=
    destroyDebt_spec (hbRate ▸ hr.bRate) (hdRate ▸ hr.dRate) howed h'
  refine ⟨hterms'.trans hterms, hbRate'.trans hbRate.le, by omega, fun hclamps hclaim hsome => ?_⟩
  have hpos : 0 < mid.data.bSupply := by
    have hnonneg := hbSupply hr.bSupply hclaim
    omega
  refine (hsurplus' (fun amount loss hamount hloss => ?_) hpos).trans hsurplus
  by_contra hmore
  exact hclamps ⟨mid, owed, amount, loss, h, howed, hpos, hamount, hloss, by omega⟩

end One

/-! ## All of them -/

section All

variable {reserves : BTreeMap Nat Reserve} {prices : OraclePrices} {borrower : Positions} {outcome : DefaultOutcome}

/-- The gate: debts, and no collateral worth anything. -/
def GateOpens (reserves : BTreeMap Nat Reserve) (prices : OraclePrices) (borrower : Positions) : Prop :=
  borrower.liabilities.isEmpty = false ∧
    ∃ data, calculatePositionData reserves prices borrower = .ok data ∧ data.collateralRaw = 0

/-- Outside the gate nothing is touched; inside, each debt's step is taken. -/
theorem projectDefault_cases (h : projectDefault reserves prices borrower = .ok outcome) :
    ¬GateOpens reserves prices borrower ∧ outcome = { reserves, defaulted := false } ∨
      GateOpens reserves prices borrower ∧
        borrower.liabilities.toList.foldlM (defaultLiability borrower.supply) { reserves, defaulted := false } =
          .ok outcome := by
  simp only [projectDefault] at h
  split at h
  · next hempty =>
    refine .inl ⟨fun hgate => ?_, (pure_ok_iff.1 h).symm⟩
    have hsome := hgate.1
    rw [hempty] at hsome
    cases hsome
  next hdebts =>
  obtain ⟨data, hdata, h⟩ := bind_ok_iff.1 h
  split at h
  · next hraw =>
    refine .inl ⟨?_, (pure_ok_iff.1 h).symm⟩
    rintro ⟨-, data', hdata', hraw'⟩
    rw [hdata] at hdata'
    cases hdata'
    exact hraw hraw'
  · next hraw => exact .inr ⟨⟨by simpa using hdebts, data, hdata, not_not.1 hraw⟩, h⟩

/-- One debt's step: its reserve is charged, and no other is touched. -/
theorem defaultLiability_cases {supply : BTreeMap Nat Int} {acc acc' : DefaultOutcome} {entry : Nat × Int}
    (h : defaultLiability supply acc entry = .ok acc') :
    ∃ r mid owed r', acc.reserves[entry.1]? = some r ∧ setOff r entry.2 (supply.getD entry.1 0) = .ok (mid, owed) ∧
      acc'.reserves = acc.reserves.insert entry.1 r' ∧
      (¬0 < owed ∧ r' = mid ∧ acc'.defaulted = acc.defaulted ∨
        0 < owed ∧ destroyDebt mid owed = .ok r' ∧ acc'.defaulted = true) := by
  obtain ⟨index, dTokens⟩ := entry
  simp only [defaultLiability, bind_ok_iff] at h
  obtain ⟨r, hr, ⟨mid, owed⟩, hmid, h⟩ := h
  have hr := reserveAt_ok_iff.1 hr
  split at h
  · next howed =>
    simp only [bind_ok_iff, pure_ok_iff] at h
    obtain ⟨r', hdestroy, rfl⟩ := h
    exact ⟨r, mid, owed, r', hr, hmid, rfl, .inr ⟨howed, hdestroy, rfl⟩⟩
  · next howed =>
    rw [pure_ok_iff] at h
    subst h
    exact ⟨r, mid, owed, mid, hr, hmid, rfl, .inl ⟨howed, rfl, rfl⟩⟩

/-- An index and its reserve: the index for the claim it is set off with. -/
def DefaultOutcome.seen (acc : DefaultOutcome) (index : Nat) : Nat × Option Reserve := (index, acc.reserves[index]?)

/-- The reserve at an index, charged for a debt. -/
def SeenCharged (supply : BTreeMap Nat Int) (dTokens : Int) (before after : Nat × Option Reserve) : Prop :=
  ∃ r r', before.2 = some r ∧ after.2 = some r' ∧
    (r.Nonneg → 0 ≤ dTokens → Charged dTokens (supply.getD before.1 0) r r')

theorem defaultLiability_seen {supply : BTreeMap Nat Int} {acc acc' : DefaultOutcome} {entry : Nat × Int}
    (h : defaultLiability supply acc entry = .ok acc') :
    SeenCharged supply entry.2 (acc.seen entry.1) (acc'.seen entry.1) ∧
      ∀ index, entry.1 ≠ index → acc'.seen index = acc.seen index := by
  obtain ⟨r, mid, owed, r', hr, hsetOff, hreserves, hcase⟩ := defaultLiability_cases h
  refine ⟨⟨r, r', hr, ?_, fun hnonneg hd => ?_⟩, fun index hne => ?_⟩
  · simp only [DefaultOutcome.seen]
    rw [hreserves, TreeMaps.getElem?_insert, if_pos rfl]
  · rcases hcase with ⟨howed, rfl, -⟩ | ⟨howed, hdestroy, -⟩
    · exact .of_setOff hnonneg hd hsetOff howed
    · exact .of_destroyDebt hnonneg hd hsetOff howed hdestroy
  · simp only [DefaultOutcome.seen]
    rw [hreserves, TreeMaps.getElem?_insert, if_neg hne]

/-- Inside the gate a named reserve is charged and no other is touched. -/
theorem projectDefault_at {supply liabilities : BTreeMap Nat Int}
    (h : liabilities.toList.foldlM (defaultLiability supply) { reserves, defaulted := false } = .ok outcome) (index : Nat) :
    liabilities[index]?.elim (outcome.reserves[index]? = reserves[index]?) fun dTokens =>
      ∃ r r', reserves[index]? = some r ∧ outcome.reserves[index]? = some r' ∧
        (r.Nonneg → 0 ≤ dTokens → Charged dTokens (supply.getD index 0) r r') := by
  have hseen := TreeMaps.foldlM_toList_at
    (fun acc entry acc' (hstep : defaultLiability supply acc entry = .ok acc') => defaultLiability_seen hstep) h index
  cases hdebt : liabilities[index]? with
  | none =>
    rw [hdebt] at hseen
    exact congrArg Prod.snd hseen
  | some dTokens =>
    rw [hdebt] at hseen
    exact hseen

/-- A loop that destroyed no debt moved no rate. -/
theorem defaultLiability_rates {supply : BTreeMap Nat Int} {l : List (Nat × Int)}
    (h : l.foldlM (defaultLiability supply) { reserves, defaulted := false } = .ok outcome)
    (hnone : outcome.defaulted = false) (index : Nat) :
    outcome.reserves[index]?.map (·.data.bRate) = reserves[index]?.map (·.data.bRate) := by
  refine foldlM_inv (fun _ acc => acc.defaulted = false → ∀ index : Nat,
    acc.reserves[index]?.map (·.data.bRate) = reserves[index]?.map (·.data.bRate)) ?_ (fun _ _ => rfl) h hnone index
  intro entry rest acc acc' hacc hstep hflag index
  obtain ⟨r, mid, owed, r', hr, hsetOff, hreserves, ⟨-, rfl, hsame⟩ | ⟨-, -, htrue⟩⟩ := defaultLiability_cases hstep
  · rw [hreserves, TreeMaps.getElem?_insert, ← hacc (hsame ▸ hflag) index]
    split
    · next heq =>
      rw [← heq, hr, Option.map_some, Option.map_some, (setOff_kept hsetOff).2]
    · rfl
  · rw [htrue] at hflag
    cases hflag

end All

/-! ## What a position is worth -/

/-- The same debts at b-rates no higher, none of them negative. -/
structure Lowered (before after : BTreeMap Nat Reserve) : Prop where
  debts : SameDebts before after
  bRate : ∀ (index : Nat) (r r' : Reserve), before[index]? = some r → after[index]? = some r' →
    0 ≤ r'.data.bRate ∧ r'.data.bRate ≤ r.data.bRate

section Worth

variable {before after : BTreeMap Nat Reserve} {prices : OraclePrices} {high high' low : PositionData} {entry : Nat × Int}

/-- A collateral entry adds no more on the lowered reserves. -/
theorem addCollateral_lowered (hlow : Lowered before after) (hentry : 0 ≤ entry.2) (hless : WorthLess high low)
    (h : addCollateral before prices high entry = .ok high') :
    ∃ low', addCollateral after prices low entry = .ok low' ∧ WorthLess high' low' := by
  obtain ⟨index, bTokens⟩ := entry
  simp only [addCollateral] at h ⊢
  by_cases hzero : bTokens = 0
  · rw [if_pos hzero, pure_ok_iff] at h
    subst h
    rw [if_pos hzero]
    exact ⟨low, rfl, hless⟩
  rw [if_neg hzero] at h
  rw [if_neg hzero]
  simp only [bind_ok_iff, pure_ok_iff, Reserve.toEffectiveAssetFromBToken, Reserve.toAssetFromBToken] at h
  obtain ⟨r, hr, price, hprice, effective, ⟨worth, hworth, heffective⟩, raw, hraw, value, hvalue, base, hbase, rawValue,
    hrawValue, rawBase, hrawBase, rfl⟩ := h
  have hr := reserveAt_ok_iff.1 hr
  have hpos := (price_pos hprice).le
  rcases hlow.debts.cases index with ⟨hnone, -⟩ | ⟨_, r', hb, ha, hasset, hconfig, -, hscalar⟩
  · rw [hr] at hnone
    cases hnone
  rw [hr] at hb
  cases hb
  obtain ⟨hrate0, hrate⟩ := hlow.bRate index r r' hr ha
  -- each rounding of a smaller amount answers with a smaller one
  obtain ⟨worth', hworth', hworth0, hworthLe⟩ := mulFloor_mono SCALAR_12_pos hentry hrate0 le_rfl hrate hworth
  obtain ⟨effective', heffective', heffective0, heffectiveLe⟩ :=
    mulFloor_mono SCALAR_7_pos hworth0 (show (0 : Int) ≤ r.config.cFactor by omega) hworthLe le_rfl heffective
  obtain ⟨raw', hraw', hraw0, hrawLe⟩ := mulFloor_mono SCALAR_12_pos hentry hrate0 le_rfl hrate hraw
  obtain ⟨value', hvalue', hvalue0, hvalueLe⟩ := mulFloor_mono r.scalar_pos hpos heffective0 le_rfl heffectiveLe hvalue
  obtain ⟨rawValue', hrawValue', hrawValue0, hrawValueLe⟩ := mulFloor_mono r.scalar_pos hpos hraw0 le_rfl hrawLe hrawValue
  obtain ⟨base', hbase', hbaseLess⟩ := narrow_add_mono hless.base hvalue0 hvalueLe hbase
  obtain ⟨rawBase', hrawBase', hrawLess⟩ := narrow_add_mono hless.raw hrawValue0 hrawValueLe hrawBase
  refine ⟨{ low with collateralBase := base', collateralRaw := rawBase' }, ?_, hbaseLess, hrawLess, hless.liabilityBase,
    hless.liabilityRaw, hless.scalar⟩
  simp only [bind_ok_iff, pure_ok_iff, Reserve.toEffectiveAssetFromBToken, Reserve.toAssetFromBToken]
  rw [← hconfig] at heffective'
  rw [← hscalar] at hvalue' hrawValue'
  rw [← hasset] at hprice
  exact ⟨r', reserveAt_ok_iff.2 ha, price, hprice, effective', ⟨worth', hworth', heffective'⟩, raw', hraw', value', hvalue',
    base', hbase', rawValue', hrawValue', rawBase', hrawBase', rfl⟩

/-- A liability entry adds the same. -/
theorem addLiability_lowered (hlow : Lowered before after) (hless : WorthLess high low)
    (h : addLiability before prices high entry = .ok high') :
    ∃ low', addLiability after prices low entry = .ok low' ∧ WorthLess high' low' := by
  obtain ⟨index, dTokens⟩ := entry
  rcases addLiability_ok_iff.1 h with ⟨hzero, rfl⟩ | ⟨hne, worth, hworth, hbase, hraw, rfl⟩
  · exact ⟨low, addLiability_ok_iff.2 (.inl ⟨hzero, rfl⟩), hless⟩
  · rw [← hlow.debts.liabilityWorth_eq prices] at hworth
    rw [← hless.liabilityBase] at hbase
    rw [← hless.liabilityRaw] at hraw
    refine ⟨low.owing worth, addLiability_ok_iff.2 (.inr ⟨hne, worth, hworth, hbase, hraw, rfl⟩), hless.base, hless.raw, ?_,
      ?_, hless.scalar⟩
    · simp only [PositionData.owing, hless.liabilityBase]
    · simp only [PositionData.owing, hless.liabilityRaw]

/-- A position is valued on the lowered reserves wherever it was before, at no
more. -/
theorem calculatePositionData_lowered {positions : Positions} (hlow : Lowered before after)
    (hheld : ∀ (index : Nat) (held : Int), positions.collateral[index]? = some held → 0 ≤ held)
    (h : calculatePositionData before prices positions = .ok high) :
    ∃ low, calculatePositionData after prices positions = .ok low ∧ WorthLess high low := by
  simp only [calculatePositionData, bind_ok_iff] at h ⊢
  obtain ⟨mid, hmid, h⟩ := h
  have hstart : ∀ data : PositionData, data.collateralBase = 0 → data.collateralRaw = 0 → WorthLess data data :=
    fun data hbase hraw => ⟨by omega, by omega, rfl, rfl, rfl⟩
  have hcollateral : ∀ entry ∈ positions.collateral.toList, ∀ high low high', WorthLess high low →
      addCollateral before prices high entry = .ok high' →
      ∃ low', addCollateral after prices low entry = .ok low' ∧ WorthLess high' low' := by
    intro entry hentry _ _ _ hless hstep
    have hget := Std.ExtTreeMap.mem_toList_iff_getElem?_eq_some.1 (show (entry.1, entry.2) ∈ _ from hentry)
    exact addCollateral_lowered hlow (hheld entry.1 entry.2 hget) hless hstep
  obtain ⟨mid', hmid', hless⟩ := foldlM_rel WorthLess hcollateral (hstart _ rfl rfl) hmid
  have hliabilities : ∀ entry ∈ positions.liabilities.toList, ∀ high low high', WorthLess high low →
      addLiability before prices high entry = .ok high' →
      ∃ low', addLiability after prices low entry = .ok low' ∧ WorthLess high' low' :=
    fun _ _ _ _ _ hless hstep => addLiability_lowered hlow hless hstep
  obtain ⟨low, hlow', hless'⟩ := foldlM_rel WorthLess hliabilities hless h
  exact ⟨low, ⟨mid', hmid', hlow'⟩, hless'⟩

end Worth

/-! ## The outcome -/

section Outcome

variable {reserves : BTreeMap Nat Reserve} {prices : OraclePrices} {borrower : Positions} {outcome : DefaultOutcome}

/-- Reserve by reserve: as it was, or charged for the debt that names it. -/
theorem projectDefault_reserve (hreserves : ∀ (index : Nat) (r : Reserve), reserves[index]? = some r → r.Nonneg)
    (hdebts : ∀ (index : Nat) (owed : Int), borrower.liabilities[index]? = some owed → 0 ≤ owed)
    (h : projectDefault reserves prices borrower = .ok outcome) {index : Nat} {r r' : Reserve}
    (hr : reserves[index]? = some r) (hr' : outcome.reserves[index]? = some r') :
    r' = r ∧ (GateOpens reserves prices borrower → borrower.liabilities[index]? = none) ∨
      GateOpens reserves prices borrower ∧ ∃ owed, borrower.liabilities[index]? = some owed ∧
        Charged owed (borrower.supply.getD index 0) r r' := by
  rcases projectDefault_cases h with ⟨hclosed, rfl⟩ | ⟨hopen, hfold⟩
  · rw [hr] at hr'
    cases hr'
    exact .inl ⟨rfl, fun hopen => absurd hopen hclosed⟩
  have hat := projectDefault_at hfold index
  cases howed : borrower.liabilities[index]? with
  | none =>
    rw [howed] at hat
    have hsame : outcome.reserves[index]? = reserves[index]? := hat
    rw [hr, hr'] at hsame
    cases hsame
    exact .inl ⟨rfl, fun _ => rfl⟩
  | some owed =>
    rw [howed] at hat
    obtain ⟨_, _, hb, ha, hcharged⟩ := hat
    rw [hr] at hb
    rw [hr'] at ha
    cases hb
    cases ha
    exact .inr ⟨hopen, owed, rfl, hcharged (hreserves index r hr) (hdebts index owed howed)⟩

theorem projectDefault_lowered (hreserves : ∀ (index : Nat) (r : Reserve), reserves[index]? = some r → r.Nonneg)
    (hdebts : ∀ (index : Nat) (owed : Int), borrower.liabilities[index]? = some owed → 0 ≤ owed)
    (h : projectDefault reserves prices borrower = .ok outcome) : Lowered reserves outcome.reserves := by
  have hdefaulted := projectDefault_defaulted h
  refine ⟨hdefaulted.debts, fun index r r' hr hr' => ⟨?_, ?_⟩⟩
  · exact hdefaulted.rates (fun index r hr => (hreserves index r hr).bRate) index r' hr'
  · rcases projectDefault_reserve hreserves hdebts h hr hr' with ⟨rfl, -⟩ | ⟨-, _, -, hcharged⟩
    · exact le_rfl
    · exact hcharged.bRate

/-- With nothing defaulted no rate moved. -/
theorem projectDefault_rates (h : projectDefault reserves prices borrower = .ok outcome) (hnone : outcome.defaulted = false)
    {index : Nat} {r r' : Reserve} (hr : reserves[index]? = some r) (hr' : outcome.reserves[index]? = some r') :
    r'.data.bRate = r.data.bRate := by
  rcases projectDefault_cases h with ⟨-, rfl⟩ | ⟨-, hfold⟩
  · rw [hr] at hr'
    cases hr'
    rfl
  · have hrates := defaultLiability_rates hfold hnone index
    rw [hr, hr'] at hrates
    simpa using hrates

/-- A surplus that did not grow, by the totals the reserve reports. -/
theorem Reserve.totals_of_surplus {r r' : Reserve} (h : r'.surplus ≤ r.surplus)
    {supply liabilities supply' liabilities' : Int}
    (hsupply : r.totalSupply = .ok supply) (hliabilities : r.totalLiabilities = .ok liabilities)
    (hsupply' : r'.totalSupply = .ok supply') (hliabilities' : r'.totalLiabilities = .ok liabilities') :
    supply' - liabilities' ≤ supply - liabilities := by
  rw [Reserve.totalSupply_eq] at hsupply hsupply'
  rw [Reserve.totalLiabilities_eq] at hliabilities hliabilities'
  rw [narrow_ok hsupply, narrow_ok hliabilities, narrow_ok hsupply', narrow_ok hliabilities']
  exact h

/-- **The projected default is pessimistic and conservative.** No b-rate rises
and no d-rate moves; a reserve no liability names is as it was, and where the
gate opens a named one owes less by exactly the borrower's d-tokens; unless the
charge is clamped at zero or nobody supplies, a reserve's total supply less its
total liabilities does not grow; with nothing defaulted no b-rate moved; and a
position of non-negative amounts is valued wherever it was before, at no more
collateral, base or raw, and no higher a health factor. -/
theorem projectDefault_pessimistic (reserves : BTreeMap Nat Reserve) (prices : OraclePrices) (borrower : Positions)
    (outcome : DefaultOutcome) (hreserves : ∀ (index : Nat) (r : Reserve), reserves[index]? = some r → r.Nonneg)
    (hdebts : ∀ (index : Nat) (owed : Int), borrower.liabilities[index]? = some owed → 0 ≤ owed)
    (hsupply : ∀ (index : Nat) (r : Reserve), reserves[index]? = some r →
      borrower.supply.getD index 0 ≤ r.data.bSupply)
    (h : projectDefault reserves prices borrower = .ok outcome) :
    (∀ index : Nat, (reserves[index]? = none ↔ outcome.reserves[index]? = none) ∧
      ∀ r r' : Reserve, reserves[index]? = some r → outcome.reserves[index]? = some r' →
        r'.data.bRate ≤ r.data.bRate ∧ r'.data.dRate = r.data.dRate ∧
        (borrower.liabilities[index]? = none → r' = r) ∧ (¬GateOpens reserves prices borrower → r' = r) ∧
        (GateOpens reserves prices borrower → ∀ owed, borrower.liabilities[index]? = some owed →
          r'.data.dSupply = r.data.dSupply - owed) ∧
        ((∀ owed, borrower.liabilities[index]? = some owed → ¬Clamps r owed (borrower.supply.getD index 0)) →
          r'.data.bSupply ≠ 0 → ∀ supply liabilities supply' liabilities', r.totalSupply = .ok supply →
          r.totalLiabilities = .ok liabilities → r'.totalSupply = .ok supply' → r'.totalLiabilities = .ok liabilities' →
          supply' - liabilities' ≤ supply - liabilities) ∧
        (outcome.defaulted = false → r'.data.bRate = r.data.bRate)) ∧
    ∀ (positions : Positions) (data : PositionData),
      (∀ (index : Nat) (held : Int), positions.collateral[index]? = some held → 0 ≤ held) →
      (∀ (index : Nat), 0 ≤ positions.liabilities.getD index 0) →
      calculatePositionData reserves prices positions = .ok data →
      ∃ data', calculatePositionData outcome.reserves prices positions = .ok data' ∧
        data'.collateralBase ≤ data.collateralBase ∧ data'.collateralRaw ≤ data.collateralRaw ∧
        ∀ hf, data.healthFactor = .ok hf → ∃ hf', data'.healthFactor = .ok hf' ∧ (hf = none ↔ hf' = none) ∧
          ∀ value value', hf = some value → hf' = some value' → value' ≤ value := by
  have hlow := projectDefault_lowered hreserves hdebts h
  refine ⟨fun index => ⟨?_, fun r r' hr hr' => ?_⟩, fun positions data hheld howed hdata => ?_⟩
  · rcases hlow.debts.cases index with ⟨hb, ha⟩ | ⟨r, r', hb, ha, -⟩
    · rw [hb, ha]
    · rw [hb, ha]
      simp
  · have hrates := fun hnone => projectDefault_rates h hnone hr hr'
    rcases projectDefault_reserve hreserves hdebts h hr hr' with ⟨rfl, hunnamed⟩ | ⟨hopen, owed, hnamed, hcharged⟩
    · refine ⟨le_rfl, rfl, fun _ => rfl, fun _ => rfl, fun hopen owed hnamed => ?_, fun _ _ => ?_, hrates⟩
      · rw [hunnamed hopen] at hnamed
        cases hnamed
      · intro supply liabilities supply' liabilities' hs hl hs' hl'
        exact Reserve.totals_of_surplus le_rfl hs hl hs' hl'
    · have hdRate : r'.data.dRate = r.data.dRate := congrArg (fun terms => terms.2.2) hcharged.terms
      refine ⟨hcharged.bRate, hdRate, fun hunnamed => ?_, fun hclosed => absurd hopen hclosed, fun _ other hother => ?_,
        fun hclamps hsome => ?_, hrates⟩
      · rw [hnamed] at hunnamed
        cases hunnamed
      · rw [hnamed] at hother
        cases hother
        exact hcharged.dSupply
      · intro supply liabilities supply' liabilities' hs hl hs' hl'
        have hsurplus := hcharged.surplus (hclamps owed hnamed) (hsupply index r hr) hsome
        exact Reserve.totals_of_surplus hsurplus hs hl hs' hl'
  · obtain ⟨data', hdata', hless⟩ := calculatePositionData_lowered hlow hheld hdata
    refine ⟨data', hdata', hless.base.2, hless.raw.2, fun hf hhf => ?_⟩
    have hdebt := calculatePositionData_liability_nonneg (fun index r hr => (hreserves index r hr).dRate) howed hdata
    refine healthFactor_lowered hless hdebt ?_ hhf
    rw [(calculatePositionData_sums hdata).2.2.1, prices.scalar_eq]
    exact Int.pow_nonneg (by decide)

end Outcome

/-! ### A default of one reserve -/

def onePrice : OraclePrices where
  decimals := 7
  scalar := 10 ^ 7
  prices := (∅ : BTreeMap String Int).insert "USDC" 10000000
  scalar_eq := SCALAR_7_eq
  prices_pos asset price h := by
    rw [TreeMaps.getElem?_insert] at h
    split at h
    · cases h
      decide
    · simp at h

def oneReserve : BTreeMap Nat Reserve := (∅ : BTreeMap Nat Reserve).insert 0 accruingReserve

/-- A borrower with debts, some supply, and no collateral. -/
def defaulter : Positions where
  liabilities := (∅ : BTreeMap Nat Int).insert 0 500000000000
  supply := (∅ : BTreeMap Nat Int).insert 0 100000000000

theorem oneReserve_at {index : Nat} {r : Reserve} (h : oneReserve[index]? = some r) : 0 = index ∧ r = accruingReserve := by
  unfold oneReserve at h
  rw [TreeMaps.getElem?_insert] at h
  split at h
  · next heq =>
    cases h
    exact ⟨heq, rfl⟩
  · simp at h

/-- The defaulter's b-rate falls by the debt its supply does not cover, and a
supplier's collateral with it. -/
theorem projectDefault_pessimistic_one : ∃ outcome r', projectDefault oneReserve onePrice defaulter = .ok outcome ∧
    outcome.reserves[0]? = some r' ∧ r'.data.bRate < SCALAR_12 ∧ r'.data.dSupply = 1500000000000 ∧
    ∃ data', calculatePositionData outcome.reserves onePrice
      { collateral := (∅ : BTreeMap Nat Int).insert 0 1000000 } = .ok data' ∧ data'.collateralRaw ≤ 1000000 := by
  obtain ⟨outcome, r', hrun, hr', hrate⟩ : ∃ outcome r', projectDefault oneReserve onePrice defaulter = .ok outcome ∧
      outcome.reserves[0]? = some r' ∧ r'.data.bRate < SCALAR_12 := ⟨_, _, rfl, rfl, by decide +kernel⟩
  obtain ⟨data, hdata, hraw⟩ : ∃ data, calculatePositionData oneReserve onePrice
      { collateral := (∅ : BTreeMap Nat Int).insert 0 1000000 } = .ok data ∧ data.collateralRaw = 1000000 := ⟨_, rfl, rfl⟩
  have hgate : GateOpens oneReserve onePrice defaulter := ⟨by decide +kernel, _, rfl, by decide +kernel⟩
  have hreserves : ∀ (index : Nat) (r : Reserve), oneReserve[index]? = some r → r.Nonneg := by
    intro index r hr
    rw [(oneReserve_at hr).2]
    constructor <;> decide
  have hdebts : ∀ (index : Nat) (owed : Int), defaulter.liabilities[index]? = some owed → 0 ≤ owed := by
    intro index owed howed
    simp only [defaulter] at howed
    rw [TreeMaps.getElem?_insert] at howed
    split at howed
    · cases howed
      decide
    · simp at howed
  have hsupply : ∀ (index : Nat) (r : Reserve), oneReserve[index]? = some r →
      defaulter.supply.getD index 0 ≤ r.data.bSupply := by
    intro index r hr
    obtain ⟨rfl, rfl⟩ := oneReserve_at hr
    decide +kernel
  obtain ⟨hkept, hworth⟩ :=
    projectDefault_pessimistic oneReserve onePrice defaulter outcome hreserves hdebts hsupply hrun
  obtain ⟨-, -, -, -, hdSupply, -⟩ := (hkept 0).2 accruingReserve r' rfl hr'
  have hheld : ∀ (index : Nat) (held : Int), ((∅ : BTreeMap Nat Int).insert 0 1000000)[index]? = some held → 0 ≤ held := by
    intro index held hheld
    rw [TreeMaps.getElem?_insert] at hheld
    split at hheld
    · cases hheld
      decide
    · simp at hheld
  obtain ⟨data', hdata', -, hle, -⟩ := hworth _ data hheld (fun index => by simp) hdata
  exact ⟨outcome, r', hrun, hr', hrate, hdSupply hgate 500000000000 rfl, data', hdata', hraw ▸ hle⟩

/-- A position of a negative amount is worth more after it. -/
theorem negative_gains_from_default : ∃ outcome data data', projectDefault oneReserve onePrice defaulter = .ok outcome ∧
    calculatePositionData oneReserve onePrice { collateral := (∅ : BTreeMap Nat Int).insert 0 (-1000000) } = .ok data ∧
    calculatePositionData outcome.reserves onePrice { collateral := (∅ : BTreeMap Nat Int).insert 0 (-1000000) } =
      .ok data' ∧ data.collateralRaw < data'.collateralRaw :=
  ⟨_, _, _, rfl, rfl, rfl, by decide +kernel⟩

end BlendLiquidator
