/-
`planUnwind` never breaks a floor: whatever it withdraws, the contract finds
the filler with no debt or with the health factor and the collateral the
bounds ask for; the primary keeps its minimum; and the repays are funded.

The planner does not project the state the contract will reach. A repay the
wallet capped is projected to clear nothing, so the debts the contract
leaves (`real`) are at most the planner's own, while the collateral is the
same on both sides. Step 1 establishes this (`Repaid`), the withdrawals keep
it (`Withdrawn`), and `calculatePositionData_of_le` carries the accepted
valuation over.
-/
import BlendLiquidator.FillSound
import BlendLiquidator.Unwind
import BlendLiquidator.Valuation

namespace BlendLiquidator

open Results IntDiv

/-! ## The health factor over exact integers -/

/-- The health factor is not under `min` (7 decimals). The code's own test
also asks that the quotient fit an `i128`, which says nothing about health. -/
def PositionData.HfAtLeast (d : PositionData) (min : Int) : Prop :=
  d.liabilityBase = 0 ∨ d.scalar * min / SCALAR_7 ≤ d.collateralBase * d.scalar / d.liabilityBase

theorem PositionData.hfAtLeast_of_isHfUnder {d : PositionData} {min : Int} (h0 : 0 ≤ d.liabilityBase)
    (h : d.isHfUnder min = .ok false) : d.HfAtLeast min := by
  by_cases hz : d.liabilityBase = 0
  · exact .inl hz
  have hpos : 0 < d.liabilityBase := by omega
  simp only [isHfUnder, healthFactor, hz, ↓reduceIte, bind_ok_iff, map_ok_iff, divFloor_eq hpos] at h
  obtain ⟨_, ⟨q, hq, rfl⟩, h⟩ := h
  simp only [bind_ok_iff, pure_ok_iff, mulFloor_eq SCALAR_7_pos, decide_eq_false_iff_not] at h
  obtain ⟨floor, hf, hle⟩ := h
  rw [narrow_ok hq, narrow_ok hf] at hle
  exact .inr (by omega)

/-- The exact reading agrees with the code's wherever the code answers. -/
theorem PositionData.HfAtLeast.not_isHfUnder {d : PositionData} {min : Int} (h0 : 0 ≤ d.liabilityBase)
    (h : d.HfAtLeast min) : d.isHfUnder min ≠ .ok true := by
  intro hu
  by_cases hz : d.liabilityBase = 0
  · simp [isHfUnder, healthFactor, hz, bind, Except.bind, pure, Except.pure] at hu
  have hpos : 0 < d.liabilityBase := by omega
  simp only [isHfUnder, healthFactor, hz, ↓reduceIte, bind_ok_iff, map_ok_iff, divFloor_eq hpos] at hu
  obtain ⟨_, ⟨q, hq, rfl⟩, hu⟩ := hu
  simp only [bind_ok_iff, pure_ok_iff, mulFloor_eq SCALAR_7_pos, decide_eq_true_eq] at hu
  obtain ⟨floor, hf, hlt⟩ := hu
  rw [narrow_ok hq, narrow_ok hf] at hlt
  rcases h with h | h <;> omega

/-- Fewer liabilities on the same collateral are no less healthy. -/
theorem PositionData.HfAtLeast.of_le {d d' : PositionData} {min : Int} (h : d.HfAtLeast min)
    (hc : d'.collateralBase = d.collateralBase) (hs : d'.scalar = d.scalar) (h0 : 0 ≤ d'.liabilityBase)
    (hle : d'.liabilityBase ≤ d.liabilityBase) (hvalue : 0 ≤ d.collateralBase * d.scalar) :
    d'.HfAtLeast min := by
  by_cases hz : d'.liabilityBase = 0
  · exact .inl hz
  have hpos : 0 < d'.liabilityBase := by omega
  rcases h with h | h
  · omega
  · right
    rw [hc, hs]
    refine h.trans ?_
    refine (Int.le_ediv_iff_mul_le hpos).2 (le_trans ?_ (ediv_mul_le' (hpos.trans_le hle)))
    exact Int.mul_le_mul_of_nonneg_left hle (Int.ediv_nonneg hvalue (hpos.le.trans hle))

/-! ## The contract's side -/

def UnwindInputs.pool (inputs : UnwindInputs) : PoolReserves := ⟨inputs.reserves, inputs.assetIndex⟩

def UnwindAction.request : UnwindAction → Request
  | .repay asset amount => .repay asset amount
  | .withdraw asset amount => .withdraw asset amount
  | .withdrawAll asset => .withdrawAll asset

def UnwindAction.isRepay : UnwindAction → Bool
  | .repay _ _ => true
  | .withdraw _ _ | .withdrawAll _ => false

/-- The requests, carried out in order from the positions planned against. -/
def replayUnwind (inputs : UnwindInputs) (actions : List UnwindAction) : Except MathError Positions :=
  (actions.map UnwindAction.request).foldlM (applyRequest inputs.pool) inputs.positions

/-- What a caller's view of the pool and of its own position always is. -/
structure UnwindInputs.WellFormed (inputs : UnwindInputs) : Prop where
  collateral_nonneg : ∀ (index : Nat) (held : Int),
    inputs.positions.collateral[index]? = some held → 0 ≤ held
  liabilities_nonneg : ∀ (index : Nat) (owed : Int),
    inputs.positions.liabilities[index]? = some owed → 0 ≤ owed
  rates_pos : ∀ (index : Nat) (reserve : Reserve), inputs.reserves[index]? = some reserve →
    0 < reserve.data.bRate ∧ 0 < reserve.data.dRate
  asset_index : ∀ (index : Nat) (reserve : Reserve), inputs.reserves[index]? = some reserve →
    inputs.assetIndex[reserve.asset]? = some index

/-- No rate of the reserves is zero or less. -/
def UnwindInputs.RatesPositive (inputs : UnwindInputs) : Prop :=
  ∀ (index : Nat) (reserve : Reserve), inputs.reserves[index]? = some reserve →
    0 < reserve.data.bRate ∧ 0 < reserve.data.dRate

/-- Nothing is owed; an entry of zero is no debt. -/
def Positions.OwesNothing (p : Positions) : Prop := ∀ index, p.liabilities.getD index 0 = 0

theorem getD_nonneg {map : BTreeMap Nat Int} (h : ∀ (index : Nat) (v : Int), map[index]? = some v → 0 ≤ v)
    (index : Nat) : 0 ≤ map.getD index 0 := by
  cases hget : map[index]? with
  | none => rw [Std.ExtTreeMap.getD_eq_getD_getElem?, hget]; exact le_rfl
  | some v => rw [TreeMaps.getD_of_getElem? hget]; exact h index v hget

theorem UnwindInputs.WellFormed.listed {inputs : UnwindInputs} (hwf : inputs.WellFormed) {index : Nat}
    {reserve : Reserve} (h : reserveAt inputs.reserves index = .ok reserve) :
    inputs.pool.listed reserve.asset = .ok (index, reserve) := by
  have hindex := hwf.asset_index index reserve (reserveAt_ok_iff.1 h)
  simp only [PoolReserves.listed, UnwindInputs.pool, hindex, h]
  rfl

theorem replayUnwind_concat {inputs : UnwindInputs} {actions : List UnwindAction} {action : UnwindAction}
    {p p' : Positions} (h : replayUnwind inputs actions = .ok p)
    (ha : applyRequest inputs.pool p action.request = .ok p') :
    replayUnwind inputs (actions ++ [action]) = .ok p' := by
  rw [replayUnwind, List.map_append]
  exact foldlM_concat_ok h ha

/-! ## Step 1: the repays -/

/-- The contract's positions against the planner's: the same collateral, and
no debt above the projected one. -/
structure Covers (real model : Positions) : Prop where
  collateral : real.collateral = model.collateral
  owed : ∀ index, 0 ≤ real.liabilities.getD index 0 ∧
    real.liabilities.getD index 0 ≤ model.liabilities.getD index 0

/-- Step 1's invariant, with the indices still to visit: on those the two
sides agree exactly. -/
structure Repaid (inputs : UnwindInputs) (rest : List Nat) (w : Repaying) : Prop where
  nodup : rest.Nodup
  run : ∃ real, replayUnwind inputs w.actions = .ok real ∧ Covers real w.positions ∧
    ∀ index ∈ rest, real.liabilities.getD index 0 = w.positions.liabilities.getD index 0
  collateral : w.positions.collateral = inputs.positions.collateral
  spending : Spending inputs.wallet w.wallet w.spend (w.actions.map UnwindAction.request)
  repays : ∀ action ∈ w.actions, action.isRepay = true

theorem withAllowance_lt {owed wanted : Int} (h0 : 0 ≤ owed) (h : withAllowance owed = .ok wanted) :
    owed < wanted := by
  simp only [withAllowance, bind_ok_iff, mulFloor_eq (show 0 < BPS by decide)] at h
  obtain ⟨extra, he, sum, hs, hw⟩ := h
  have hextra : 0 ≤ owed * REPAY_ALLOWANCE_BPS / BPS :=
    Int.ediv_nonneg (Int.mul_nonneg h0 (by decide)) (by decide)
  have he := narrow_ok he
  have hs := narrow_ok hs
  have hw := narrow_ok hw
  omega

theorem toDTokenDown_nonneg {reserve : Reserve} {amount tokens : Int} (hrate : 0 < reserve.data.dRate)
    (h0 : 0 ≤ amount) (h : reserve.toDTokenDown amount = .ok tokens) : 0 ≤ tokens := by
  rw [Reserve.toDTokenDown, divFloor_eq hrate] at h
  rw [narrow_ok h]
  exact Int.ediv_nonneg (Int.mul_nonneg h0 (by decide)) hrate.le

/-- What step 1 does with a liability: an entry of nothing is dropped, one the
wallet has nothing for stays, and any other is repaid as far as the wallet goes. -/
theorem repayLiability_cases {inputs : UnwindInputs} {w w' : Repaying} {index : Nat}
    (h : repayLiability inputs w index = .ok w') :
    ∃ reserve, reserveAt inputs.reserves index = .ok reserve ∧
      (w.positions.liabilities.getD index 0 ≤ 0 ∧
          w' = { w with positions := { w.positions with liabilities := w.positions.liabilities.erase index } } ∨
        0 < w.positions.liabilities.getD index 0 ∧ w.wallet.getD reserve.asset 0 ≤ 0 ∧ w' = w ∨
        0 < w.positions.liabilities.getD index 0 ∧ 0 < w.wallet.getD reserve.asset 0 ∧
          ∃ owed wanted tokens left rest spend,
            reserve.toAssetFromDToken (w.positions.liabilities.getD index 0) = .ok owed ∧
            withAllowance owed = .ok wanted ∧
            reserve.toDTokenDown (min wanted (w.wallet.getD reserve.asset 0)) = .ok tokens ∧
            narrow (w.positions.liabilities.getD index 0 - min tokens (w.positions.liabilities.getD index 0)) = .ok left ∧
            narrow (w.wallet.getD reserve.asset 0 - min wanted (w.wallet.getD reserve.asset 0)) = .ok rest ∧
            addTo w.spend reserve.asset (min wanted (w.wallet.getD reserve.asset 0)) = .ok spend ∧
            w' = { positions := { w.positions with
                     liabilities := setBalance w.positions.liabilities index
                       (if left = 0 ∧ min wanted (w.wallet.getD reserve.asset 0) < wanted then
                         w.positions.liabilities.getD index 0
                       else left) }
                   wallet := w.wallet.insert reserve.asset rest
                   actions := w.actions ++ [.repay reserve.asset (min wanted (w.wallet.getD reserve.asset 0))]
                   spend }) := by
  simp only [repayLiability, bind_ok_iff] at h
  obtain ⟨reserve, hr, h⟩ := h
  refine ⟨reserve, hr, ?_⟩
  split at h
  · next hzero => exact .inl ⟨hzero, (pure_ok_iff.1 h).symm⟩
  next howing =>
  split at h
  · next hheld => exact .inr (.inl ⟨not_le.1 howing, hheld, (pure_ok_iff.1 h).symm⟩)
  next hheld =>
  simp only [bind_ok_iff, pure_ok_iff] at h
  obtain ⟨owed, ho, wanted, hwant, tokens, ht, left, hl, rest, hrest, spend, hs, rfl⟩ := h
  exact .inr (.inr ⟨not_le.1 howing, not_le.1 hheld, owed, wanted, tokens, left, rest, spend, ho, hwant, ht, hl, hrest, hs,
    rfl⟩)

theorem repayLiability_repaid {inputs : UnwindInputs} (hwf : inputs.WellFormed) {index : Nat}
    {rest : List Nat} {w w' : Repaying} (hw : Repaid inputs (index :: rest) w)
    (h : repayLiability inputs w index = .ok w') : Repaid inputs rest w' := by
  obtain ⟨real, hrun, hcov, hagree⟩ := hw.run
  obtain ⟨hnot, hnodup⟩ := List.nodup_cons.1 hw.nodup
  have hsame := hagree index (by simp)
  have howed := hcov.owed index
  obtain ⟨reserve, hr, ⟨hzero, rfl⟩ | ⟨-, -, rfl⟩ | ⟨howing, hheld, owed, wanted, tokens, left, rest', spend, ho, hwant,
    ht, hl, hrest, hs, rfl⟩⟩ := repayLiability_cases h
  · -- An entry of zero: dropped by the planner, no debt for the contract.
    refine ⟨hnodup, ⟨real, hrun, ⟨hcov.collateral, fun i => ?_⟩, fun i hi => ?_⟩, hw.collateral,
      hw.spending, hw.repays⟩
    · rw [TreeMaps.getD_erase]
      split
      · next heq => subst heq; omega
      · exact hcov.owed i
    · rw [TreeMaps.getD_erase, if_neg (fun heq : index = i => hnot (heq ▸ hi))]
      exact hagree i (by simp [hi])
  · exact ⟨hnodup, ⟨real, hrun, hcov, fun i hi => hagree i (by simp [hi])⟩, hw.collateral, hw.spending,
      hw.repays⟩
  have hl := narrow_ok hl
  obtain ⟨-, hrate⟩ := hwf.rates_pos index reserve (reserveAt_ok_iff.1 hr)
  have howed0 : 0 ≤ owed := by
    rw [Reserve.toAssetFromDToken, mulCeil_eq SCALAR_12_pos] at ho
    rw [narrow_ok ho]
    exact ceilDiv_nonneg SCALAR_12_pos (Int.mul_nonneg (by omega) hrate.le)
  have hwanted := withAllowance_lt howed0 hwant
  have htokens := toDTokenDown_nonneg hrate (by omega) ht
  -- The planner's debt after the repay is the contract's or, when the wallet capped it, all of it.
  have hleft : 0 ≤ left ∧ left ≤ if left = 0 ∧ min wanted (w.wallet.getD reserve.asset 0) < wanted
      then w.positions.liabilities.getD index 0 else left := by
    split <;> omega
  have hmodel := fun i => (setBalance_getD (hleft.1.trans hleft.2) i :
    (setBalance w.positions.liabilities index _).getD i 0 = _)
  refine ⟨hnodup, ⟨{ real with liabilities := setBalance real.liabilities index left },
    replayUnwind_concat hrun ?_, ⟨hcov.collateral, fun i => ?_⟩, fun i hi => ?_⟩, hw.collateral, ?_, ?_⟩
  · simp only [UnwindAction.request, applyRequest, hwf.listed hr, bind_ok_iff, pure_ok_iff]
    refine ⟨_, rfl, tokens, ht, ?_⟩
    rw [hsame, hl]
  · dsimp only
    rw [setBalance_getD hleft.1, hmodel]
    split
    · exact hleft
    · exact hcov.owed i
  · have hne : index ≠ i := fun heq => hnot (heq ▸ hi)
    dsimp only
    rw [setBalance_getD hleft.1, hmodel, if_neg hne, if_neg hne]
    exact hagree i (by simp [hi])
  · rw [List.map_append]
    exact hw.spending.repay (min_le_right _ _) hrest hs
  · intro action ha
    rcases List.mem_append.1 ha with ha | ha
    · exact hw.repays action ha
    · rw [List.mem_singleton.1 ha]; rfl

theorem repay_repaid {inputs : UnwindInputs} (hwf : inputs.WellFormed) {w : Repaying}
    (h : repay inputs = .ok w) : Repaid inputs [] w := by
  refine foldlM_inv (Repaid inputs) (fun _ _ _ _ => repayLiability_repaid hwf) ?_ h
  refine ⟨TreeMaps.nodup_keys _, ⟨inputs.positions, rfl, ⟨rfl, fun i => ⟨?_, le_rfl⟩⟩, fun _ _ => rfl⟩, rfl,
    Spending.start _, by simp⟩
  exact getD_nonneg hwf.liabilities_nonneg i

/-! ## The primary's floor -/

/-- The b-tokens the primary keeps: its minimum's own image, rounded up. -/
def primaryFloor (terms : UnwindTerms) (reserve : Reserve) : Int :=
  ceilDiv (max terms.minPrimaryCollateral 0 * SCALAR_12) reserve.data.bRate

/-- A withdrawal of `amount` is within what `held` has above the floor. -/
def Spare (terms : UnwindTerms) (reserve : Reserve) (held amount : Int) : Prop :=
  amount * SCALAR_12 ≤ (held - primaryFloor terms reserve) * reserve.data.bRate

/-- What became of the primary: nothing, or it stood at its floor and
still does. -/
def PrimaryKept (terms : UnwindTerms) (reserve : Reserve) (before after : Option Int) : Prop :=
  after = before ∨ primaryFloor terms reserve ≤ before.getD 0 ∧ primaryFloor terms reserve ≤ after.getD 0

theorem toBTokenUp_ok {reserve : Reserve} {amount tokens : Int} (hrate : 0 < reserve.data.bRate)
    (h : reserve.toBTokenUp amount = .ok tokens) :
    tokens = ceilDiv (amount * SCALAR_12) reserve.data.bRate := by
  rw [Reserve.toBTokenUp, divCeil_eq hrate] at h
  exact narrow_ok h

/-- The round trip down to underlying and up to b-tokens never takes more
than it was given. -/
theorem spare_of_goes {terms : UnwindTerms} {reserve : Reserve} {held goes amount : Int}
    (hrate : 0 < reserve.data.bRate) (hgoes : goes ≤ held - primaryFloor terms reserve)
    (h : reserve.toAssetFromBToken goes = .ok amount) : Spare terms reserve held amount := by
  rw [Reserve.toAssetFromBToken, mulFloor_eq SCALAR_12_pos] at h
  rw [narrow_ok h]
  exact (ediv_mul_le' SCALAR_12_pos).trans (Int.mul_le_mul_of_nonneg_right hgoes hrate.le)

theorem Spare.mono {terms : UnwindTerms} {reserve : Reserve} {held amount less : Int}
    (h : Spare terms reserve held amount) (hle : less ≤ amount) : Spare terms reserve held less :=
  (Int.mul_le_mul_of_nonneg_right hle SCALAR_12_pos.le).trans h

/-- What a spare withdrawal burns leaves the floor standing. -/
theorem Spare.burn_le {terms : UnwindTerms} {reserve : Reserve} {held amount tokens : Int}
    (hrate : 0 < reserve.data.bRate) (h : Spare terms reserve held amount)
    (ht : reserve.toBTokenUp amount = .ok tokens) : tokens ≤ held - primaryFloor terms reserve := by
  rw [toBTokenUp_ok hrate ht]
  exact (ceilDiv_le_iff hrate).2 h

theorem primaryIndex_ok {terms : UnwindTerms} {inputs : UnwindInputs} {primary : Nat}
    (h : primaryIndex terms inputs = .ok primary) :
    inputs.assetIndex[terms.primaryAsset]? = some primary := by
  simp only [primaryIndex] at h
  split at h
  · next heq => cases h; exact heq
  · cases h

theorem primaryExcess_spare {terms : UnwindTerms} {inputs : UnwindInputs} (hrates : inputs.RatesPositive)
    {positions : Positions} {primary : Nat} {reserve : Reserve} {excess : Int}
    (hp : primaryIndex terms inputs = .ok primary) (hr : reserveAt inputs.reserves primary = .ok reserve)
    (h : primaryExcess terms inputs positions = .ok excess) (hpos : 0 < excess) :
    Spare terms reserve (positions.collateral.getD primary 0) excess := by
  obtain ⟨hrate, -⟩ := hrates primary reserve (reserveAt_ok_iff.1 hr)
  simp only [primaryExcess, hp, hr, bind_ok_iff, Except.ok.injEq, exists_eq_left'] at h
  split at h
  · rw [← pure_ok_iff.1 h] at hpos; omega
  simp only [bind_ok_iff] at h
  obtain ⟨floor, hf, goes, hg, h⟩ := h
  split at h
  · rw [← pure_ok_iff.1 h] at hpos; omega
  have hf : floor = primaryFloor terms reserve := toBTokenUp_ok hrate hf
  have hg := narrow_ok hg
  exact spare_of_goes hrate (by omega) h

theorem mayGo_le {terms : UnwindTerms} {bounds : Bounds} {inputs : UnwindInputs} {reserve : Reserve}
    {data : PositionData} {held goes : Int} (hrate : 0 < reserve.data.bRate)
    (h : mayGo terms bounds inputs reserve data held true = .ok goes) :
    goes ≤ held - primaryFloor terms reserve := by
  simp only [mayGo, ↓reduceIte, bind_ok_iff, pure_ok_iff] at h
  obtain ⟨_, -, _, -, _, -, _, -, _, -, _, -, _, -, _, -, _, -, _, -, floor, hf, room, hroom, rfl⟩ := h
  have hf : floor = primaryFloor terms reserve := toBTokenUp_ok hrate hf
  have hroom := narrow_ok hroom
  omega

/-! ## What a candidate can do -/

/-- The end state a withdrawal was taken for. -/
def Accepted (bounds : Bounds) (inputs : UnwindInputs) (positions : Positions) : Prop :=
  ∃ data, projectUnwind inputs positions = .ok data ∧ bounds.accepts data = .ok true

/-- One withdrawal of step 3 from `index`, whole or partial: the bounds accept
where it ends, and it takes no more of the primary than is spare. -/
inductive Taken (terms : UnwindTerms) (bounds : Bounds) (inputs : UnwindInputs) (primary index : Nat)
    (w : Withdrawing) : Withdrawing → Prop
  | whole {reserve : Reserve} (hne : index ≠ primary)
      (hr : reserveAt inputs.reserves index = .ok reserve)
      (ha : Accepted bounds inputs { w.positions with collateral := w.positions.collateral.erase index }) :
      Taken terms bounds inputs primary index w
        { positions := { w.positions with collateral := w.positions.collateral.erase index }
          actions := w.actions ++ [.withdrawAll reserve.asset] }
  | part {reserve : Reserve} {amount : Int} {next : Positions}
      (hr : reserveAt inputs.reserves index = .ok reserve) (hpos : 0 < amount)
      (hspare : index = primary → Spare terms reserve (w.positions.collateral.getD index 0) amount)
      (hnext : afterWithdrawal inputs w.positions index amount = .ok next)
      (ha : Accepted bounds inputs next) :
      Taken terms bounds inputs primary index w
        { positions := next, actions := w.actions ++ [.withdraw reserve.asset amount] }

section Candidates

variable {terms : UnwindTerms} {bounds : Bounds} {inputs : UnwindInputs} {primary : Nat}
  {w w' : Withdrawing} {index : Nat} {reserve : Reserve}

theorem takeWithdrawal_taken {amount : Int} (hr : reserveAt inputs.reserves index = .ok reserve)
    (hspare : index = primary → Spare terms reserve (w.positions.collateral.getD index 0) amount)
    (h : takeWithdrawal bounds inputs w index amount = .ok (some w')) :
    Taken terms bounds inputs primary index w w' := by
  simp only [takeWithdrawal] at h
  split at h
  · simp [pure_ok_iff] at h
  next hpos =>
  simp only [bind_ok_iff] at h
  obtain ⟨next, hnext, data, hdata, b, hb, h⟩ := h
  cases b with
  | false => simp [pure_ok_iff] at h
  | true =>
    simp only [Bool.not_true, Bool.false_eq_true, ↓reduceIte, bind_ok_iff, pure_ok_iff, Option.some.injEq,
      hr, Except.ok.injEq, exists_eq_left'] at h
    subst h
    exact .part hr (by omega) hspare hnext ⟨data, hdata, hb⟩

theorem backOff_taken {isPrimary : Bool} (hr : reserveAt inputs.reserves index = .ok reserve)
    {n : Nat} {amount : Int}
    (hspare : index = primary → Spare terms reserve (w.positions.collateral.getD index 0) amount)
    (h : backOff terms bounds inputs w index isPrimary n amount = .ok w') :
    w' = w ∨ Taken terms bounds inputs primary index w w' := by
  induction n generalizing amount with
  | zero => simp only [backOff, Except.ok.injEq] at h; exact .inl h.symm
  | succ n ih =>
    simp only [backOff, bind_ok_iff] at h
    obtain ⟨small, hsmall, h⟩ := h
    cases small with
    | true => exact .inl (pure_ok_iff.1 h).symm
    | false =>
      have hpos : 0 < amount := by
        simp only [tooSmall] at hsmall
        split at hsmall
        · cases hsmall
        · omega
      simp only [Bool.false_eq_true, ↓reduceIte, bind_ok_iff] at h
      obtain ⟨found, hfound, h⟩ := h
      cases found with
      | some taken =>
        rw [pure_ok_iff] at h
        subst h
        exact .inr (takeWithdrawal_taken hr hspare hfound)
      | none =>
        simp only [bind_ok_iff] at h
        obtain ⟨cut, hcut, less, hless, h⟩ := h
        have hcut0 : 0 ≤ cut := by
          rw [mulCeil_eq (show 0 < BPS by decide)] at hcut
          rw [narrow_ok hcut]
          exact ceilDiv_nonneg (by decide) (Int.mul_nonneg hpos.le (by decide))
        have hless := narrow_ok hless
        exact ih (fun heq => (hspare heq).mono (by omega)) h

theorem withdrawPartial_taken (hrates : inputs.RatesPositive) {data : PositionData}
    (hp : primaryIndex terms inputs = .ok primary)
    (h : withdrawPartial terms bounds inputs w data index = .ok w') :
    w' = w ∨ Taken terms bounds inputs primary index w w' := by
  simp only [withdrawPartial, bind_ok_iff] at h
  obtain ⟨reserve, hr, h⟩ := h
  obtain ⟨hrate, -⟩ := hrates index reserve (reserveAt_ok_iff.1 hr)
  split at h
  · exact .inl (pure_ok_iff.1 h).symm
  split at h
  · exact .inl (pure_ok_iff.1 h).symm
  simp only [hp, bind_ok_iff, Except.ok.injEq, exists_eq_left'] at h
  obtain ⟨goes, hgoes, h⟩ := h
  split at h
  · exact .inl (pure_ok_iff.1 h).symm
  simp only [bind_ok_iff] at h
  obtain ⟨amount, hamount, h⟩ := h
  refine backOff_taken hr (fun heq => ?_) h
  rw [decide_eq_true heq] at hgoes
  exact spare_of_goes hrate (mayGo_le hrate hgoes) hamount

/-- **One candidate leaves everything as it was or takes one withdrawal.** -/
theorem withdrawCandidate_cases (hrates : inputs.RatesPositive) {data : PositionData}
    (hp : primaryIndex terms inputs = .ok primary)
    (h : withdrawCandidate terms bounds inputs w data index = .ok w') :
    w' = w ∨ Taken terms bounds inputs primary index w w' := by
  simp only [withdrawCandidate, hp, bind_ok_iff, Except.ok.injEq, exists_eq_left'] at h
  split at h
  · next heq =>
    subst heq
    simp only [withdrawPrimaryCandidate, bind_ok_iff] at h
    obtain ⟨excess, hexcess, h⟩ := h
    split at h
    · exact .inl (pure_ok_iff.1 h).symm
    next hpos =>
    simp only [bind_ok_iff] at h
    obtain ⟨small, -, h⟩ := h
    cases small with
    | true => exact .inl (pure_ok_iff.1 h).symm
    | false =>
      simp only [Bool.false_eq_true, ↓reduceIte, bind_ok_iff] at h
      obtain ⟨found, hfound, h⟩ := h
      cases found with
      | some taken =>
        rw [pure_ok_iff] at h
        subst h
        obtain ⟨reserve, hr⟩ : ∃ reserve, reserveAt inputs.reserves index = .ok reserve := by
          simp only [primaryExcess, hp, bind_ok_iff, Except.ok.injEq, exists_eq_left'] at hexcess
          obtain ⟨reserve, hr, -⟩ := hexcess
          exact ⟨reserve, hr⟩
        refine .inr (takeWithdrawal_taken hr (fun _ => ?_) hfound)
        exact primaryExcess_spare hrates hp hr hexcess (by omega)
      | none => exact withdrawPartial_taken hrates hp h
  · next hne =>
    simp only [withdrawOtherCandidate, bind_ok_iff] at h
    obtain ⟨reserve, hr, data', hdata, b, hb, h⟩ := h
    cases b with
    | true =>
      simp only [↓reduceIte, pure_ok_iff] at h
      subst h
      exact .inr (.whole hne hr ⟨data', hdata, hb⟩)
    | false => exact withdrawPartial_taken hrates hp h

end Candidates

/-! ## The candidate order -/

/-- The indices placed so far. -/
def Order.placed (o : Order) : List Nat := o.order ++ o.rest.map Prod.snd

/-- `candidates`' loop invariant, with the entries still to visit: what is
held goes to one place each. -/
structure Placed (positions : Positions) (primary : Nat) (rest : List (Nat × Int)) (o : Order) : Prop where
  nodup : (o.placed ++ rest.map Prod.fst).Nodup
  entries : ∀ entry ∈ rest, positions.collateral[entry.1]? = some entry.2
  held : ∀ index ∈ o.placed, index ≠ primary ∧ 0 < positions.collateral.getD index 0
  last : o.holdsPrimary = true → 0 < positions.collateral.getD primary 0
  complete : ∀ index, 0 < positions.collateral.getD index 0 →
    index ∈ rest.map Prod.fst ∨ index ∈ o.placed ∨ index = primary ∧ o.holdsPrimary = true

/-- A pass that puts its index at the end of one of the two lists. -/
theorem Placed.place {positions : Positions} {primary : Nat} {entry : Nat × Int} {rest : List (Nat × Int)}
    {o o' : Order} (h : Placed positions primary (entry :: rest) o) (hne : entry.1 ≠ primary) (hpos : 0 < entry.2)
    (hholds : o'.holdsPrimary = o.holdsPrimary) (hperm : List.Perm o'.placed (entry.1 :: o.placed)) :
    Placed positions primary rest o' := by
  refine ⟨?_, fun e he => h.entries e (by simp [he]), fun i hi => ?_, fun hh => h.last (hholds ▸ hh), fun i hi => ?_⟩
  · have hmove : List.Perm (o'.placed ++ rest.map Prod.fst) (o.placed ++ (entry :: rest).map Prod.fst) := by
      refine (hperm.append_right _).trans ?_
      rw [List.map_cons, List.cons_append]
      exact List.perm_middle.symm
    exact hmove.nodup_iff.2 h.nodup
  · rcases List.mem_cons.1 (hperm.mem_iff.1 hi) with rfl | hi
    · have hentry := h.entries entry (by simp)
      rw [TreeMaps.getD_of_getElem? hentry]
      exact ⟨hne, hpos⟩
    · exact h.held i hi
  · rcases h.complete i hi with hi | hi | hi
    · rcases List.mem_cons.1 hi with rfl | hi
      · exact .inr (.inl (hperm.mem_iff.2 (by simp)))
      · exact .inl hi
    · exact .inr (.inl (hperm.mem_iff.2 (by simp [hi])))
    · exact .inr (.inr (hholds ▸ hi))

theorem placeCandidate_placed {inputs : UnwindInputs} {positions : Positions} {primary : Nat} {entry : Nat × Int}
    {rest : List (Nat × Int)} {o o' : Order} (ho : Placed positions primary (entry :: rest) o)
    (h : placeCandidate inputs positions primary o entry = .ok o') : Placed positions primary rest o' := by
  have hnodup : (o.placed ++ rest.map Prod.fst).Nodup :=
    ho.nodup.sublist ((List.sublist_cons_self _ _).append_left _)
  have hentries : ∀ e ∈ rest, positions.collateral[e.1]? = some e.2 := fun e he => ho.entries e (by simp [he])
  have hentry := ho.entries entry (by simp)
  obtain ⟨index, bTokens⟩ := entry
  simp only [placeCandidate] at h
  split at h
  · next hzero =>
    rw [pure_ok_iff] at h
    subst h
    refine ⟨hnodup, hentries, ho.held, ho.last, fun i hi => ?_⟩
    rcases ho.complete i hi with hi' | hi' | hi'
    · rcases List.mem_cons.1 hi' with rfl | hi'
      · rw [TreeMaps.getD_of_getElem? hentry] at hi
        dsimp only at hi
        omega
      · exact .inl hi'
    · exact .inr (.inl hi')
    · exact .inr (.inr hi')
  next hpos =>
  split at h
  · next heq =>
    rw [pure_ok_iff] at h
    subst h heq
    refine ⟨hnodup, hentries, ho.held, fun _ => ?_, fun i hi => ?_⟩
    · rw [TreeMaps.getD_of_getElem? hentry]
      dsimp only
      omega
    · rcases ho.complete i hi with hi' | hi' | ⟨rfl, -⟩
      · rcases List.mem_cons.1 hi' with rfl | hi'
        · exact .inr (.inr ⟨rfl, rfl⟩)
        · exact .inl hi'
      · exact .inr (.inl hi')
      · exact .inr (.inr ⟨rfl, rfl⟩)
  next hne =>
  split at h
  · rw [pure_ok_iff] at h
    subst h
    refine ho.place hne (by dsimp only; omega) rfl ?_
    simp only [Order.placed, List.append_assoc, List.singleton_append]
    exact List.perm_middle
  · simp only [bind_ok_iff, pure_ok_iff] at h
    obtain ⟨reserve, -, price, -, effective, -, value, -, rfl⟩ := h
    refine ho.place hne (by dsimp only; omega) rfl ?_
    simp only [Order.placed, List.map_append, List.map_cons, List.map_nil, ← List.append_assoc]
    exact List.perm_append_singleton _ _

/-- The candidates are the collateral held, each once. -/
theorem candidates_primary {terms : UnwindTerms} {inputs : UnwindInputs} {positions : Positions} {order : List Nat}
    (h : candidates terms inputs positions = .ok order) : ∃ primary, primaryIndex terms inputs = .ok primary := by
  simp only [candidates, bind_ok_iff] at h
  obtain ⟨primary, hp, -⟩ := h
  exact ⟨primary, hp⟩

theorem candidates_ok {terms : UnwindTerms} {inputs : UnwindInputs} {positions : Positions} {order : List Nat}
    (h : candidates terms inputs positions = .ok order) :
    order.Nodup ∧ ∀ index, index ∈ order ↔ 0 < positions.collateral.getD index 0 := by
  simp only [candidates, bind_ok_iff, pure_ok_iff] at h
  obtain ⟨primary, -, o, ho, rfl⟩ := h
  have hstart : Placed positions primary positions.collateral.toList {} := by
    refine ⟨?_, fun e he => Std.ExtTreeMap.mem_toList_iff_getElem?_eq_some.1 he, fun i hi => ?_, fun hh => ?_,
      fun i hi => .inl ?_⟩
    · rw [Std.ExtTreeMap.map_fst_toList_eq_keys]
      exact TreeMaps.nodup_keys _
    · simp [Order.placed] at hi
    · cases hh
    · cases hget : positions.collateral[i]? with
      | none =>
        rw [Std.ExtTreeMap.getD_eq_getD_getElem?, hget] at hi
        exact absurd hi (by decide)
      | some held =>
        exact List.mem_map.2 ⟨(i, held), Std.ExtTreeMap.mem_toList_iff_getElem?_eq_some.2 hget, rfl⟩
  have hplaced := foldlM_inv (Placed positions primary) (fun _ _ _ _ => placeCandidate_placed) hstart ho
  have hperm : List.Perm (o.order ++ (o.rest.insertionSort byValue).map Prod.snd) o.placed :=
    ((List.perm_insertionSort byValue o.rest).map Prod.snd).append_left _
  have hnodup : o.placed.Nodup := by simpa using hplaced.nodup
  have hmem : ∀ i, i ∈ o.placed → i ≠ primary := fun i hi => (hplaced.held i hi).1
  cases hholds : o.holdsPrimary with
  | true =>
    simp only [↓reduceIte]
    refine ⟨?_, fun i => ?_⟩
    · refine List.Nodup.append (hperm.nodup_iff.2 hnodup) (List.nodup_singleton _) ?_
      intro i hi hprimary
      exact hmem i (hperm.mem_iff.1 hi) (List.mem_singleton.1 hprimary)
    · rw [List.mem_append, hperm.mem_iff, List.mem_singleton]
      constructor
      · rintro (hi | rfl)
        · exact (hplaced.held i hi).2
        · exact hplaced.last hholds
      · intro hi
        rcases hplaced.complete i hi with hi | hi | ⟨hi, -⟩
        · simp at hi
        · exact .inl hi
        · exact .inr hi
  | false =>
    simp only [Bool.false_eq_true, ↓reduceIte, List.append_nil]
    refine ⟨hperm.nodup_iff.2 hnodup, fun i => ?_⟩
    rw [hperm.mem_iff]
    constructor
    · exact fun hi => (hplaced.held i hi).2
    · intro hi
      rcases hplaced.complete i hi with hi | hi | ⟨-, hi⟩
      · simp at hi
      · exact hi
      · rw [hholds] at hi
        cases hi

/-! ## Steps 2 and 3 -/

/-- The primary after a withdrawal of what it has to spare. -/
theorem PrimaryKept.withdraw {terms : UnwindTerms} {reserve : Reserve} {before mid : Option Int}
    {amount tokens : Int} {after : Option Int} (h : PrimaryKept terms reserve before mid)
    (hrate : 0 < reserve.data.bRate) (hpos : 0 < amount) (hspare : Spare terms reserve (mid.getD 0) amount)
    (ht : reserve.toBTokenUp amount = .ok tokens)
    (hafter : after.getD 0 = mid.getD 0 - min tokens (mid.getD 0)) :
    PrimaryKept terms reserve before after := by
  have hle := hspare.burn_le hrate ht
  have htokens : 0 < tokens := by
    rw [toBTokenUp_ok hrate ht]
    exact ceilDiv_pos hrate (Int.mul_pos hpos SCALAR_12_pos)
  refine .inr ⟨?_, by omega⟩
  rcases h with rfl | ⟨h, -⟩
  · omega
  · exact h

theorem afterWithdrawal_ok {inputs : UnwindInputs} {positions next : Positions} {index : Nat}
    {reserve : Reserve} {amount : Int} (hr : reserveAt inputs.reserves index = .ok reserve)
    (h : afterWithdrawal inputs positions index amount = .ok next) :
    ∃ tokens, reserve.toBTokenUp amount = .ok tokens ∧
      next = { positions with
        collateral := setBalance positions.collateral index
          (positions.collateral.getD index 0 - min tokens (positions.collateral.getD index 0)) } := by
  simp only [afterWithdrawal, hr, bind_ok_iff, pure_ok_iff, Except.ok.injEq, exists_eq_left'] at h
  obtain ⟨tokens, ht, left, hl, rfl⟩ := h
  rw [narrow_ok hl]
  exact ⟨tokens, ht, rfl⟩

/-- The contract burns for a `Withdraw` what the planner projected. -/
theorem applyRequest_withdraw {inputs : UnwindInputs} (hwf : inputs.WellFormed) {real : Positions}
    {index : Nat} {reserve : Reserve} {amount tokens : Int}
    (hr : reserveAt inputs.reserves index = .ok reserve) (ht : reserve.toBTokenUp amount = .ok tokens) :
    applyRequest inputs.pool real (.withdraw reserve.asset amount) =
      .ok { real with
        collateral := setBalance real.collateral index
          (real.collateral.getD index 0 - min tokens (real.collateral.getD index 0)) } := by
  simp only [applyRequest, hwf.listed hr, bind_ok_iff, pure_ok_iff]
  exact ⟨_, rfl, tokens, ht, rfl⟩

theorem applyRequest_withdrawAll {inputs : UnwindInputs} (hwf : inputs.WellFormed) {real : Positions}
    {index : Nat} {reserve : Reserve} (hr : reserveAt inputs.reserves index = .ok reserve) :
    applyRequest inputs.pool real (.withdrawAll reserve.asset) =
      .ok { real with collateral := real.collateral.erase index } := by
  simp only [applyRequest, hwf.listed hr, bind_ok_iff, pure_ok_iff]
  exact ⟨_, rfl, rfl⟩

/-- A withdrawal after the repays leaves their spend as it was. -/
theorem Spending.withdrawal {start wallet spend : BTreeMap String Int} {actions : List UnwindAction}
    {action : UnwindAction} (h : Spending start wallet spend (actions.map UnwindAction.request))
    (ha : action.isRepay = false) :
    Spending start wallet spend ((actions ++ [action]).map UnwindAction.request) := by
  rw [List.map_append]
  refine h.free fun asset => ?_
  cases action with
  | repay _ _ => cases ha
  | withdraw _ _ => rfl
  | withdrawAll _ => rfl

/-- Step 3's invariant, from the repays it follows. -/
structure Withdrawn (terms : UnwindTerms) (bounds : Bounds) (inputs : UnwindInputs) (primary : Nat)
    (repaid : Repaying) (w : Withdrawing) : Prop where
  run : ∃ real, replayUnwind inputs w.actions = .ok real ∧ Covers real w.positions
  held : ∀ (index : Nat) (held : Int), w.positions.collateral[index]? = some held → 0 ≤ held
  kept : ∀ reserve, inputs.reserves[primary]? = some reserve →
    PrimaryKept terms reserve inputs.positions.collateral[primary]? w.positions.collateral[primary]?
  accepted : (∀ action ∈ w.actions, action.isRepay = true) ∨ Accepted bounds inputs w.positions
  spending : Spending inputs.wallet repaid.wallet repaid.spend (w.actions.map UnwindAction.request)

theorem Taken.withdrawn {terms : UnwindTerms} {bounds : Bounds} {inputs : UnwindInputs} {primary index : Nat}
    {repaid : Repaying} {w w' : Withdrawing} (hwf : inputs.WellFormed) (hw : Withdrawn terms bounds inputs primary repaid w)
    (h : Taken terms bounds inputs primary index w w') : Withdrawn terms bounds inputs primary repaid w' := by
  obtain ⟨real, hrun, hcov⟩ := hw.run
  cases h with
  | whole hne hr ha =>
    refine ⟨⟨_, replayUnwind_concat hrun (applyRequest_withdrawAll hwf hr), ?_, hcov.owed⟩,
      fun i v hv => ?_, fun r hr => ?_, .inr ha, hw.spending.withdrawal rfl⟩
    · dsimp only
      rw [hcov.collateral]
    · rw [TreeMaps.getElem?_erase] at hv
      split at hv
      · cases hv
      · exact hw.held i v hv
    · rw [TreeMaps.getElem?_erase, if_neg hne]
      exact hw.kept r hr
  | @part reserve amount next hr hpos hspare hnext ha =>
    obtain ⟨hrate, -⟩ := hwf.rates_pos index reserve (reserveAt_ok_iff.1 hr)
    obtain ⟨tokens, ht, rfl⟩ := afterWithdrawal_ok hr hnext
    have hheld := getD_nonneg hw.held index
    refine ⟨⟨_, replayUnwind_concat hrun (applyRequest_withdraw hwf hr ht), ?_, hcov.owed⟩,
      fun i v hv => ?_, fun r hr' => ?_, .inr ha, hw.spending.withdrawal rfl⟩
    · dsimp only
      rw [hcov.collateral]
    · exact setBalance_nonneg hw.held i v hv
    · by_cases hi : index = primary
      · subst hi
        obtain rfl : r = reserve := Option.some.inj (hr'.symm.trans (reserveAt_ok_iff.1 hr))
        refine (hw.kept r hr').withdraw hrate hpos ?_ ht ?_
        · rw [← Std.ExtTreeMap.getD_eq_getD_getElem?]
          exact hspare rfl
        · rw [← Std.ExtTreeMap.getD_eq_getD_getElem?, ← Std.ExtTreeMap.getD_eq_getD_getElem?,
            setBalance_getD (by omega), if_pos rfl]
      · rw [setBalance_getElem?_of_ne hi]
        exact hw.kept r hr'

/-- Where step 3 starts from the repays. -/
theorem Repaid.withdrawn {terms : UnwindTerms} {bounds : Bounds} {inputs : UnwindInputs} {primary : Nat}
    {repaid : Repaying} (hwf : inputs.WellFormed) (h : Repaid inputs [] repaid) :
    Withdrawn terms bounds inputs primary repaid { positions := repaid.positions, actions := repaid.actions } := by
  obtain ⟨real, hrun, hcov, -⟩ := h.run
  exact ⟨⟨real, hrun, hcov⟩, fun i v hv => hwf.collateral_nonneg i v (h.collateral ▸ hv),
    fun _ _ => .inl (by rw [h.collateral]), .inl h.repays, h.spending⟩

/-- The walk stops at a position under the margin, and otherwise goes on from
what it made of the candidate. -/
theorem walkCandidates_cons {terms : UnwindTerms} {bounds : Bounds} {inputs : UnwindInputs} {index : Nat}
    {rest : List Nat} {w w' : Withdrawing} (h : walkCandidates terms bounds inputs (index :: rest) w = .ok w') :
    ∃ data, projectUnwind inputs w.positions = .ok data ∧
      (data.isHfUnder bounds.margin = .ok true ∧ w' = w ∨
        data.isHfUnder bounds.margin = .ok false ∧ ∃ mid, withdrawCandidate terms bounds inputs w data index = .ok mid ∧
          walkCandidates terms bounds inputs rest mid = .ok w') := by
  simp only [walkCandidates, bind_ok_iff] at h
  obtain ⟨data, hdata, under, hunder, h⟩ := h
  refine ⟨data, hdata, ?_⟩
  cases under with
  | true => exact .inl ⟨hunder, (pure_ok_iff.1 h).symm⟩
  | false =>
    simp only [Bool.false_eq_true, ↓reduceIte, bind_ok_iff] at h
    exact .inr ⟨hunder, h⟩

theorem walkCandidates_withdrawn {terms : UnwindTerms} {bounds : Bounds} {inputs : UnwindInputs}
    {primary : Nat} {repaid : Repaying} (hwf : inputs.WellFormed)
    (hp : primaryIndex terms inputs = .ok primary)
    {order : List Nat} {w w' : Withdrawing} (hw : Withdrawn terms bounds inputs primary repaid w)
    (h : walkCandidates terms bounds inputs order w = .ok w') :
    Withdrawn terms bounds inputs primary repaid w' := by
  induction order generalizing w with
  | nil => simp only [walkCandidates, Except.ok.injEq] at h; exact h ▸ hw
  | cons index rest ih =>
    obtain ⟨data, -, ⟨-, rfl⟩ | ⟨-, mid, hmid, hrest⟩⟩ := walkCandidates_cons h
    · exact hw
    · rcases withdrawCandidate_cases hwf.rates_pos hp hmid with rfl | htaken
      · exact ih hw hrest
      · exact ih (htaken.withdrawn hwf hw) hrest

/-- Step 2's invariant: nothing is owed, and the two sides agree on the
primary, which the loop leaves alone. -/
structure Freed (inputs : UnwindInputs) (primary : Nat) (repaid : Repaying) (w : Withdrawing) :
    Prop where
  run : ∃ real, replayUnwind inputs w.actions = .ok real ∧ real.OwesNothing ∧
    real.collateral[primary]? = w.positions.collateral[primary]?
  kept : w.positions.collateral[primary]? = inputs.positions.collateral[primary]?
  spending : Spending inputs.wallet repaid.wallet repaid.spend (w.actions.map UnwindAction.request)

/-- Step 2 leaves the primary to its end and takes out any other, an entry of
nothing without a request. -/
theorem withdrawFreely_cases {inputs : UnwindInputs} {primary index : Nat} {w w' : Withdrawing}
    (h : withdrawFreely inputs primary w index = .ok w') :
    index = primary ∧ w' = w ∨ index ≠ primary ∧ ∃ reserve, reserveAt inputs.reserves index = .ok reserve ∧
      w' = { positions := { w.positions with collateral := w.positions.collateral.erase index }
             actions := if w.positions.collateral.getD index 0 ≤ 0 then w.actions
                        else w.actions ++ [.withdrawAll reserve.asset] } := by
  simp only [withdrawFreely] at h
  split at h
  · next heq => exact .inl ⟨heq, (pure_ok_iff.1 h).symm⟩
  · next hne =>
    simp only [bind_ok_iff, pure_ok_iff, decide_eq_true_eq] at h
    obtain ⟨reserve, hr, rfl⟩ := h
    exact .inr ⟨hne, reserve, hr, rfl⟩

theorem withdrawFreely_freed {inputs : UnwindInputs} {primary index : Nat} {repaid : Repaying}
    {w w' : Withdrawing}
    (hwf : inputs.WellFormed) (hw : Freed inputs primary repaid w)
    (h : withdrawFreely inputs primary w index = .ok w') : Freed inputs primary repaid w' := by
  obtain ⟨real, hrun, howes, hsame⟩ := hw.run
  obtain ⟨-, rfl⟩ | ⟨hne, reserve, hr, rfl⟩ := withdrawFreely_cases h
  · exact hw
  have hkept : (w.positions.collateral.erase index)[primary]? = w.positions.collateral[primary]? := by
    rw [TreeMaps.getElem?_erase, if_neg hne]
  by_cases hempty : w.positions.collateral.getD index 0 ≤ 0
  · rw [if_pos hempty]
    exact ⟨⟨real, hrun, howes, hsame.trans hkept.symm⟩, hkept.trans hw.kept, hw.spending⟩
  · rw [if_neg hempty]
    refine ⟨⟨_, replayUnwind_concat hrun (applyRequest_withdrawAll hwf hr), howes, ?_⟩,
      hkept.trans hw.kept, hw.spending.withdrawal rfl⟩
    rw [hkept, TreeMaps.getElem?_erase, if_neg hne]
    exact hsame

/-- What the end of step 2 may do with the primary: it stays, all of it goes
where no minimum is set, or what it has above its floor does. -/
inductive PrimaryEnds (terms : UnwindTerms) (inputs : UnwindInputs) (primary : Nat) (w : Withdrawing) :
    Withdrawing → Prop
  | empty (hheld : w.positions.collateral.getD primary 0 ≤ 0) : PrimaryEnds terms inputs primary w w
  | whole {reserve : Reserve} (hheld : 0 < w.positions.collateral.getD primary 0)
      (hr : reserveAt inputs.reserves primary = .ok reserve) (hmin : terms.minPrimaryCollateral ≤ 0) :
      PrimaryEnds terms inputs primary w
        { positions := { w.positions with collateral := w.positions.collateral.erase primary }
          actions := w.actions ++ [.withdrawAll reserve.asset] }
  | stays {reserve : Reserve} {excess : Int} (hheld : 0 < w.positions.collateral.getD primary 0)
      (hr : reserveAt inputs.reserves primary = .ok reserve)
      (hexcess : primaryExcess terms inputs w.positions = .ok excess)
      (hsmall : excess ≤ 0 ∨ dust terms excess = .ok true) : PrimaryEnds terms inputs primary w w
  | part {reserve : Reserve} {excess : Int} {next : Positions} (hheld : 0 < w.positions.collateral.getD primary 0)
      (hr : reserveAt inputs.reserves primary = .ok reserve)
      (hexcess : primaryExcess terms inputs w.positions = .ok excess) (hpos : 0 < excess)
      (hnext : afterWithdrawal inputs w.positions primary excess = .ok next) :
      PrimaryEnds terms inputs primary w
        { positions := next, actions := w.actions ++ [.withdraw reserve.asset excess] }

theorem withdrawPrimary_ends {terms : UnwindTerms} {inputs : UnwindInputs} {primary : Nat} {w w' : Withdrawing}
    (h : withdrawPrimary terms inputs primary w = .ok w') : PrimaryEnds terms inputs primary w w' := by
  simp only [withdrawPrimary] at h
  split at h
  · next hheld =>
    rw [← pure_ok_iff.1 h]
    exact .empty hheld
  next hheld =>
  rw [Int.not_le] at hheld
  simp only [bind_ok_iff] at h
  obtain ⟨reserve, hr, h⟩ := h
  split at h
  · next hmin =>
    rw [← pure_ok_iff.1 h]
    exact .whole hheld hr hmin
  simp only [bind_ok_iff] at h
  obtain ⟨excess, hexcess, h⟩ := h
  split at h
  · next hnone =>
    rw [← pure_ok_iff.1 h]
    exact .stays hheld hr hexcess (.inl hnone)
  next hpos =>
  simp only [bind_ok_iff] at h
  obtain ⟨small, hsmall, h⟩ := h
  cases small with
  | true =>
    rw [← pure_ok_iff.1 h]
    exact .stays hheld hr hexcess (.inr hsmall)
  | false =>
    simp only [Bool.false_eq_true, ↓reduceIte, bind_ok_iff, pure_ok_iff] at h
    obtain ⟨next, hnext, rfl⟩ := h
    exact .part hheld hr hexcess (Int.not_le.1 hpos) hnext

/-- What step 2 ends on. -/
theorem withdrawPrimary_kept {terms : UnwindTerms} {inputs : UnwindInputs} {primary : Nat}
    {repaid : Repaying} {w w' : Withdrawing} (hwf : inputs.WellFormed)
    (hp : primaryIndex terms inputs = .ok primary) (hw : Freed inputs primary repaid w)
    (h : withdrawPrimary terms inputs primary w = .ok w') :
    ∃ real, replayUnwind inputs w'.actions = .ok real ∧ real.OwesNothing ∧
      (∀ reserve, inputs.reserves[primary]? = some reserve →
        PrimaryKept terms reserve inputs.positions.collateral[primary]? real.collateral[primary]?) ∧
      Spending inputs.wallet repaid.wallet repaid.spend (w'.actions.map UnwindAction.request) := by
  obtain ⟨real, hrun, howes, hsame⟩ := hw.run
  have hstays : ∀ reserve, inputs.reserves[primary]? = some reserve →
      PrimaryKept terms reserve inputs.positions.collateral[primary]? real.collateral[primary]? :=
    fun _ _ => .inl (hsame.trans hw.kept)
  have hgetD : real.collateral.getD primary 0 = w.positions.collateral.getD primary 0 := by
    rw [Std.ExtTreeMap.getD_eq_getD_getElem?, hsame, ← Std.ExtTreeMap.getD_eq_getD_getElem?]
  cases withdrawPrimary_ends h with
  | empty => exact ⟨real, hrun, howes, hstays, hw.spending⟩
  | stays => exact ⟨real, hrun, howes, hstays, hw.spending⟩
  | whole hheld hr hmin =>
    -- No minimum: the floor is nothing, and nothing is what stays.
    refine ⟨_, replayUnwind_concat hrun (applyRequest_withdrawAll hwf hr), howes, fun r hr' => .inr ?_,
      hw.spending.withdrawal rfl⟩
    have hfloor : primaryFloor terms r = 0 := by
      simp [primaryFloor, max_eq_right hmin, ceilDiv]
    rw [hfloor, TreeMaps.getElem?_erase, if_pos rfl, ← Std.ExtTreeMap.getD_eq_getD_getElem?]
    exact ⟨getD_nonneg hwf.collateral_nonneg primary, le_rfl⟩
  | part hheld hr hexcess hpos hnext =>
    obtain ⟨hrate, -⟩ := hwf.rates_pos primary _ (reserveAt_ok_iff.1 hr)
    obtain ⟨tokens, ht, -⟩ := afterWithdrawal_ok hr hnext
    refine ⟨_, replayUnwind_concat hrun (applyRequest_withdraw hwf hr ht), howes, fun r hr' => ?_,
      hw.spending.withdrawal rfl⟩
    obtain rfl := Option.some.inj (hr'.symm.trans (reserveAt_ok_iff.1 hr))
    refine (hstays r hr').withdraw hrate hpos ?_ ht ?_
    · rw [← Std.ExtTreeMap.getD_eq_getD_getElem?, hgetD]
      exact primaryExcess_spare hwf.rates_pos hp hr hexcess hpos
    · rw [← Std.ExtTreeMap.getD_eq_getD_getElem?, ← Std.ExtTreeMap.getD_eq_getD_getElem?,
        setBalance_getD (by omega), if_pos rfl]

/-! ## The plan -/

/-- Where step 3 rests: `ceil(min_health_factor * 10050 / 10000)`. -/
def unwindMargin (terms : UnwindTerms) : Int := ceilDiv (terms.minHealthFactor * 10050) 10000

/-- The end state of a plan that withdrew over a debt. -/
def HoldsFloors (terms : UnwindTerms) (inputs : UnwindInputs) (after : Positions) : Prop :=
  ∃ data, calculatePositionData inputs.reserves inputs.prices after = .ok data ∧
    data.HfAtLeast (unwindMargin terms) ∧ data.isHfUnder (unwindMargin terms) ≠ .ok true ∧
    terms.minCollateral ≤ data.collateralBase

theorem Bounds.of_ok {terms : UnwindTerms} {bounds : Bounds} (h : Bounds.of terms = .ok bounds) :
    bounds.margin = unwindMargin terms ∧ bounds.minCollateral = terms.minCollateral := by
  simp only [Bounds.of, bind_ok_iff, pure_ok_iff, mulCeil_eq (show 0 < BPS by decide)] at h
  obtain ⟨scaled, hs, margin, hm, rfl⟩ := h
  have hs := narrow_ok hs
  have hm := narrow_ok hm
  subst hs
  exact ⟨hm, rfl⟩

theorem Bounds.accepts_true {bounds : Bounds} {data : PositionData} (h : bounds.accepts data = .ok true) :
    data.isHfUnder bounds.margin = .ok false ∧ bounds.minCollateral ≤ data.collateralBase := by
  simp only [Bounds.accepts, bind_ok_iff, pure_ok_iff, Bool.and_eq_true, Bool.not_eq_true',
    decide_eq_true_eq] at h
  obtain ⟨under, hu, rfl, hc⟩ := h
  exact ⟨hu, hc⟩

/-- The accepted valuation of the planner's positions, carried over to what
the contract finds. -/
theorem Accepted.holdsFloors {terms : UnwindTerms} {bounds : Bounds} {inputs : UnwindInputs}
    {real model : Positions} (hwf : inputs.WellFormed) (hb : Bounds.of terms = .ok bounds)
    (hcov : Covers real model)
    (hheld : ∀ (index : Nat) (held : Int), model.collateral[index]? = some held → 0 ≤ held)
    (h : Accepted bounds inputs model) : HoldsFloors terms inputs real := by
  obtain ⟨data, hdata, haccepts⟩ := h
  obtain ⟨hmargin, hmin⟩ := Bounds.of_ok hb
  obtain ⟨hunder, hcollateral⟩ := Bounds.accepts_true haccepts
  have hrates := fun index reserve hr => (hwf.rates_pos index reserve hr).2.le
  obtain ⟨data', hdata', hc, hs, h0, hle⟩ :=
    calculatePositionData_of_le hrates hcov.collateral hcov.owed hdata
  obtain ⟨hnonneg, hscalar⟩ := calculatePositionData_collateral_nonneg
    (fun index reserve hr => (hwf.rates_pos index reserve hr).1.le) hheld hdata
  have hscale : 0 ≤ data.scalar := by
    rw [hscalar, inputs.prices.scalar_eq]
    exact Int.pow_nonneg (by decide)
  rw [hmargin] at hunder
  have hhf := (PositionData.hfAtLeast_of_isHfUnder (h0.trans hle) hunder).of_le hc hs h0 hle
    (Int.mul_nonneg hnonneg hscale)
  exact ⟨data', hdata', hhf, hhf.not_isHfUnder h0, by rw [hc, ← hmin]; exact hcollateral⟩

/-- Standing at the floor in b-tokens is being worth the minimum. -/
theorem primaryFloor_le_iff {terms : UnwindTerms} {reserve : Reserve} {held : Int}
    (hrate : 0 < reserve.data.bRate) :
    primaryFloor terms reserve ≤ held ↔ max terms.minPrimaryCollateral 0 ≤ reserve.worth held := by
  rw [primaryFloor, ceilDiv_le_iff hrate, Reserve.worth, Int.le_ediv_iff_mul_le SCALAR_12_pos]

/-- The primary keeps its minimum when it had it, and is left alone when it
had less. -/
theorem PrimaryKept.worth {terms : UnwindTerms} {reserve : Reserve} {before after : Option Int}
    (hrate : 0 < reserve.data.bRate) (h : PrimaryKept terms reserve before after) :
    (terms.minPrimaryCollateral ≤ reserve.worth (before.getD 0) →
      terms.minPrimaryCollateral ≤ reserve.worth (after.getD 0)) ∧
    (reserve.worth (before.getD 0) < terms.minPrimaryCollateral → after = before) := by
  rcases h with rfl | ⟨hbefore, hafter⟩
  · exact ⟨id, fun _ => rfl⟩
  · rw [primaryFloor_le_iff hrate] at hbefore hafter
    exact ⟨fun _ => by omega, fun hlt => by omega⟩

/-- **`plan_unwind` never breaks a floor.** Its requests, carried out with
the contract's arithmetic, end with nothing owed, or within the health
margin and the collateral minimum, or withdraw nothing at all; the primary
keeps its minimum, or is left alone when it had less; and the spend is what
the repays take, never more than the wallet holds. -/
theorem planUnwind_sound {terms : UnwindTerms} {inputs : UnwindInputs} {plan : UnwindPlan}
    (hwf : inputs.WellFormed) (h : planUnwind terms inputs = .ok plan) :
    ∃ after, replayUnwind inputs plan.actions = .ok after ∧
      (after.OwesNothing ∨ HoldsFloors terms inputs after ∨
        ∀ action ∈ plan.actions, action.isRepay = true) ∧
      (∀ (primary : Nat) (reserve : Reserve), inputs.assetIndex[terms.primaryAsset]? = some primary →
        inputs.reserves[primary]? = some reserve →
        (terms.minPrimaryCollateral ≤ reserve.worth (inputs.positions.collateral.getD primary 0) →
          terms.minPrimaryCollateral ≤ reserve.worth (after.collateral.getD primary 0)) ∧
        (reserve.worth (inputs.positions.collateral.getD primary 0) < terms.minPrimaryCollateral →
          after.collateral[primary]? = inputs.positions.collateral[primary]?)) ∧
      (∀ asset, plan.spend.getD asset 0 = spentOn asset (plan.actions.map UnwindAction.request)) ∧
      (∀ asset amount, plan.spend[asset]? = some amount → amount ≤ inputs.wallet.getD asset 0) := by
  simp only [planUnwind, bind_ok_iff, pure_ok_iff] at h
  obtain ⟨repaid, hrepay, remaining, -, ⟨w, health⟩, hw, rfl⟩ := h
  have hrepaid := repay_repaid hwf hrepay
  obtain ⟨real, hrun, hcov, -⟩ := hrepaid.run
  -- Both steps end on a run of the contract's, the primary kept, and the repays' own spend.
  suffices hend : ∃ after primary, primaryIndex terms inputs = .ok primary ∧
      replayUnwind inputs w.actions = .ok after ∧
      (after.OwesNothing ∨ HoldsFloors terms inputs after ∨ ∀ action ∈ w.actions, action.isRepay = true) ∧
      (∀ reserve, inputs.reserves[primary]? = some reserve →
        PrimaryKept terms reserve inputs.positions.collateral[primary]? after.collateral[primary]?) ∧
      Spending inputs.wallet repaid.wallet repaid.spend (w.actions.map UnwindAction.request) by
    obtain ⟨after, primary, hp, hafter, hfloors, hkept, hspending⟩ := hend
    refine ⟨after, hafter, hfloors, fun primary' reserve hp' hr => ?_, hspending.spend_eq,
      fun _ _ => hspending.within⟩
    obtain rfl : primary = primary' := Option.some.inj ((primaryIndex_ok hp).symm.trans hp')
    have hworth := (hkept reserve hr).worth (hwf.rates_pos primary reserve hr).1
    rw [← Std.ExtTreeMap.getD_eq_getD_getElem?, ← Std.ExtTreeMap.getD_eq_getD_getElem?] at hworth
    exact hworth
  simp only [withdrawCollateral] at hw
  split at hw
  · next hempty =>
    simp only [map_ok_iff, withdrawFree, bind_ok_iff] at hw
    obtain ⟨w', ⟨primary, hp, mid, hmid, hlast⟩, heq⟩ := hw
    cases heq
    have howes : real.OwesNothing := by
      intro index
      have hempty : repaid.positions.liabilities = ∅ := Std.ExtTreeMap.isEmpty_iff.1 hempty
      have := hcov.owed index
      rw [hempty] at this
      simp only [Std.ExtTreeMap.getD_empty] at this
      omega
    have hfreed : Freed inputs primary repaid { positions := repaid.positions, actions := repaid.actions } :=
      ⟨⟨real, hrun, howes, by rw [hcov.collateral]⟩, by rw [hrepaid.collateral], hrepaid.spending⟩
    have hmid := foldlM_inv (fun _ => Freed inputs primary repaid)
      (fun _ _ _ _ => withdrawFreely_freed hwf) hfreed hmid
    obtain ⟨after, hafter, hnone, hkept, hspending⟩ := withdrawPrimary_kept hwf hp hmid hlast
    exact ⟨after, primary, hp, hafter, .inl hnone, hkept, hspending⟩
  · simp only [withdrawWithinFloor, bind_ok_iff, pure_ok_iff] at hw
    obtain ⟨bounds, hb, order, horder, w', hwalk, data, -, health', -, heq⟩ := hw
    cases heq
    obtain ⟨primary, hp⟩ := candidates_primary horder
    have hwalked := walkCandidates_withdrawn hwf hp (hrepaid.withdrawn hwf) hwalk
    obtain ⟨after, hafter, hcovers⟩ := hwalked.run
    refine ⟨after, primary, hp, hafter, ?_, fun reserve hr => ?_, hwalked.spending⟩
    · rcases hwalked.accepted with hnone | hacc
      · exact .inr (.inr hnone)
      · exact .inr (.inl (hacc.holdsFloors hwf hb hcovers hwalked.held))
    · rw [hcovers.collateral]
      exact hwalked.kept reserve hr

/-! ## An unwind that withdraws over a debt -/

def sampleUnwindTerms : UnwindTerms where
  primaryAsset := "USDC"
  minPrimaryCollateral := 100000000
  minHealthFactor := 11000000
  minCollateral := 100

/-- The sample fill's filler, one fill later: XLM and USDC as collateral,
USDC owed, and a wallet that covers a part of it. -/
def sampleUnwindInputs : UnwindInputs where
  reserves := sampleReserves
  assetIndex := sampleAssetIndex
  prices := samplePrices
  positions := { collateral := (∅ : BTreeMap Nat Int).insert 0 1000000000 |>.insert 1 8000000000
                 liabilities := (∅ : BTreeMap Nat Int).insert 0 400000000 }
  wallet := (∅ : BTreeMap String Int).insert "USDC" 50000000

theorem sampleReserves_cases {index : Nat} {reserve : Reserve} (h : sampleReserves[index]? = some reserve) :
    index = 1 ∧ reserve = sampleReserve "XLM" 1 7500000 7500000 ∨
      index = 0 ∧ reserve = sampleReserve "USDC" 0 9500000 9500000 := by
  simp only [sampleReserves, TreeMaps.getElem?_insert] at h
  split at h
  · next heq => cases h; exact .inl ⟨heq.symm, rfl⟩
  · split at h
    · next heq => cases h; exact .inr ⟨heq.symm, rfl⟩
    · simp at h

theorem sampleUnwindInputs_wellFormed : sampleUnwindInputs.WellFormed where
  collateral_nonneg := fun index held h => by
    simp only [sampleUnwindInputs, TreeMaps.getElem?_insert] at h
    split at h
    · cases h; decide
    · split at h
      · cases h; decide
      · simp at h
  liabilities_nonneg := fun index owed h => by
    simp only [sampleUnwindInputs, TreeMaps.getElem?_insert] at h
    split at h
    · cases h; decide
    · simp at h
  rates_pos := fun index reserve h => by
    rcases sampleReserves_cases h with ⟨-, rfl⟩ | ⟨-, rfl⟩ <;> exact ⟨by decide, by decide⟩
  asset_index := fun index reserve h => by
    rcases sampleReserves_cases h with ⟨rfl, rfl⟩ | ⟨rfl, rfl⟩ <;> decide

/-- The sample position keeps a debt, and is unwound within its floors. -/
theorem planUnwind_sound_sample :
    ∃ plan after, planUnwind sampleUnwindTerms sampleUnwindInputs = .ok plan ∧
      replayUnwind sampleUnwindInputs plan.actions = .ok after ∧
      (after.OwesNothing ∨ HoldsFloors sampleUnwindTerms sampleUnwindInputs after ∨
        ∀ action ∈ plan.actions, action.isRepay = true) := by
  have hok : (planUnwind sampleUnwindTerms sampleUnwindInputs).isOk = true := by decide +kernel
  cases hplan : planUnwind sampleUnwindTerms sampleUnwindInputs with
  | error e => rw [hplan] at hok; cases hok
  | ok plan =>
    obtain ⟨after, hreplay, hfloors, -⟩ := planUnwind_sound sampleUnwindInputs_wellFormed hplan
    exact ⟨plan, after, rfl, hreplay, hfloors⟩

end BlendLiquidator
