/-
`planFill` is sound: a draft it answers with, replayed with the contract's
arithmetic, leaves the filler within its floors and its wallet.

`replay` is the contract's side of the story: the scaled auction is added to
the filler's positions, then each request is carried out as `applyRequest`
does. The proof
follows the planner's shape. A draft leaves through `settle` from one of
three places (a round, the percent search, the ledger search), and all three
hand it a projection that was found healthy (`planRounds_fill`); the
projection's positions are the replay's and its spend is what its own
actions spend (`project_exact`, from the loop invariant `Ledgered`).
-/
import BlendLiquidator.AuctionFacts
import BlendLiquidator.Spending

namespace BlendLiquidator

open Results

/-! ## The contract's side -/

def FillInputs.pool (inputs : FillInputs) : PoolReserves := ⟨inputs.reserves, inputs.assetIndex⟩

def FillAction.request : FillAction → Request
  | .repay asset amount => .repay asset amount
  | .withdrawAll asset => .withdrawAll asset
  | .supplyCollateral asset amount => .supplyCollateral asset amount

/-- One request after the fill, as the contract carries it out. -/
def applyAction (inputs : FillInputs) (p : Positions) (action : FillAction) : Except MathError Positions :=
  applyRequest inputs.pool p action.request

/-- One entry of the scaled auction handed to the filler. -/
def handOver (inputs : FillInputs) (map : BTreeMap Nat Int) (entry : String × Int) :
    Except MathError (BTreeMap Nat Int) := do
  let (index, _) ← inputs.pool.listed entry.1
  pure (raise map index entry.2)

/-- The filler's positions once the draft has landed at its own ledger and
percent: the fill, then every request in order. -/
def replay (inputs : FillInputs) (draft : FillDraft) : Except MathError Positions := do
  let scaled ← scaleAuction inputs.auction draft.fillLedger draft.percent.get
  let collateral ← scaled.toFill.lot.toList.foldlM (handOver inputs) inputs.filler.collateral
  let liabilities ← scaled.toFill.bid.toList.foldlM (handOver inputs) inputs.filler.liabilities
  draft.actions.foldlM (applyAction inputs) { inputs.filler with collateral, liabilities }

/-- The reserves the contract values the filler against: after the
borrower's default path when the scaling leaves no remainder, as read
otherwise. -/
def valuedAgainst (inputs : FillInputs) (draft : FillDraft) :
    Except MathError (BTreeMap Nat Reserve) := do
  let scaled ← scaleAuction inputs.auction draft.fillLedger draft.percent.get
  if scaled.remaining.isNone then defaultedReserves inputs scaled.toFill else .ok inputs.reserves

/-- What the filler is held to once the draft has landed: no liabilities, or
a health factor not under the floor with at least `min_collateral`. -/
def WithinFloors (terms : FillTerms) (inputs : FillInputs) (draft : FillDraft) (p : Positions) : Prop :=
  p.liabilities.isEmpty = true ∨
    ∃ reserves data, valuedAgainst inputs draft = .ok reserves ∧
      calculatePositionData reserves inputs.prices p = .ok data ∧
      data.isHfUnder terms.healthFloor = .ok false ∧ terms.minCollateral ≤ data.collateralBase

/-! ## A draft comes from a healthy projection -/

/-- A projection the plan may settle: found healthy at a candidate ledger and
percent. -/
structure Candidate (terms : FillTerms) (inputs : FillInputs) (ledger : Nat) (percent : FillPercent)
    (projection : Projection) : Prop where
  projected : ∃ supply, project terms inputs ledger percent supply = .ok projection
  healthy : healthy terms projection = .ok true
  percent_le : percent.get ≤ inputs.maxPercent.get

theorem firstHealthy_some {α} {terms : FillTerms} {projectAt : α → Except MathError Projection} :
    ∀ {l : List α} {a projection}, firstHealthy terms projectAt l = .ok (some (a, projection)) →
      a ∈ l ∧ projectAt a = .ok projection ∧ healthy terms projection = .ok true
  | [], _, _, h => by simp [firstHealthy] at h
  | c :: l, a, projection, h => by
    simp only [firstHealthy, bind_ok_iff] at h
    obtain ⟨p, hp, b, hb, h⟩ := h
    cases b with
    | true =>
      simp only [↓reduceIte, pure_ok_iff, Option.some.injEq, Prod.mk.injEq] at h
      obtain ⟨rfl, rfl⟩ := h
      exact ⟨by simp, hp, hb⟩
    | false =>
      obtain ⟨hm, h1, h2⟩ := firstHealthy_some (by simpa using h)
      exact ⟨by simp [hm], h1, h2⟩

theorem percentsBelow_lt {below percent : FillPercent} (h : percent ∈ percentsBelow below) :
    percent.get < below.get := by
  simp only [percentsBelow, List.mem_filterMap, List.mem_reverse, List.mem_range] at h
  obtain ⟨value, hv, h⟩ := h
  split at h
  · cases h; exact hv
  · cases h

/-- Where a search ends on a draft, it was settled from a candidate, projected
with the supply the rounds had come to. -/
theorem searchCandidates_fill {terms inputs ledger last r d}
    (h : searchCandidates terms inputs ledger last r = .ok (.fill d)) :
    ∃ ledger' percent projection, ledger ≤ ledger' ∧ Candidate terms inputs ledger' percent projection ∧
      project terms inputs ledger' percent r.supply = .ok projection ∧
      settle terms inputs ledger' percent projection = .ok (.fill d) := by
  simp only [searchCandidates, bind_ok_iff] at h
  obtain ⟨found, hf, h⟩ := h
  cases found with
  | some found =>
    obtain ⟨lower, projection⟩ := found
    obtain ⟨hm, hp, hh⟩ := firstHealthy_some hf
    exact ⟨ledger, lower, projection, Nat.le_refl _, ⟨⟨_, hp⟩, hh, (percentsBelow_lt hm).le⟩, hp, h⟩
  | none =>
    simp only [bind_ok_iff] at h
    obtain ⟨found, hf, h⟩ := h
    cases found with
    | some found =>
      obtain ⟨later, projection⟩ := found
      simp only [firstHealthyLedger] at hf
      split at hf
      · cases hf
      · obtain ⟨hm, hp, hh⟩ := firstHealthy_some hf
        simp only [List.mem_range'_1] at hm
        exact ⟨later, _, projection, by omega, ⟨⟨_, hp⟩, hh, Nat.le_refl _⟩, hp, h⟩
    | none => simp [pure, Except.pure] at h

/-- `S` holds of every supply the rounds widen to. -/
def Widens (terms : FillTerms) (inputs : FillInputs) (S : Int → Prop) : Prop :=
  ∀ projection r wider, widenSupply terms inputs projection r = .ok wider → r.supply < wider.supply → S r.supply →
    S wider.supply

theorem widens_true {terms : FillTerms} {inputs : FillInputs} : Widens terms inputs fun _ => True :=
  fun _ _ _ _ _ _ => trivial

/-- The same for the rounds: a round settles its own projection, widens the
supply and goes on, or falls back on the searches. -/
theorem planRounds_fill {terms inputs ledger last d} {S : Int → Prop} (hS : Widens terms inputs S) : ∀ {n r},
    S r.supply → planRounds terms inputs ledger last n r = .ok (.fill d) →
    ∃ ledger' percent projection, ledger ≤ ledger' ∧ Candidate terms inputs ledger' percent projection ∧
      (∃ supply, S supply ∧ project terms inputs ledger' percent supply = .ok projection) ∧
      settle terms inputs ledger' percent projection = .ok (.fill d)
  | 0, _, _, h => by simp [planRounds] at h
  | n + 1, r, hr, h => by
    simp only [planRounds, bind_ok_iff] at h
    obtain ⟨projection, hp, h⟩ := h
    split at h
    · simp [pure, Except.pure] at h
    simp only [bind_ok_iff] at h
    obtain ⟨b, hb, h⟩ := h
    cases b with
    | true =>
      simp only [↓reduceIte] at h
      exact ⟨ledger, _, projection, Nat.le_refl _, ⟨⟨_, hp⟩, hb, Nat.le_refl _⟩, ⟨_, hr, hp⟩, h⟩
    | false =>
      simp only [Bool.false_eq_true, ↓reduceIte] at h
      split at h
      · simp only [bind_ok_iff] at h
        obtain ⟨wider, hwider, h⟩ := h
        split at h
        · next hmore => exact planRounds_fill hS (hS projection r wider hwider hmore hr) h
        · obtain ⟨ledger', percent, projection', hle, hc, hp', hs⟩ := searchCandidates_fill h
          exact ⟨ledger', percent, projection', hle, hc, ⟨_, hr, hp'⟩, hs⟩
      · obtain ⟨ledger', percent, projection', hle, hc, hp', hs⟩ := searchCandidates_fill h
        exact ⟨ledger', percent, projection', hle, hc, ⟨_, hr, hp'⟩, hs⟩

/-! ## A projection is its own replay -/

/-- The planner and the contract look an asset up the same way. -/
theorem reserveFor_listed {inputs : FillInputs} {asset : String} {found : Nat × Reserve}
    (h : reserveFor inputs asset = .ok found) : inputs.pool.listed asset = .ok found := by
  simp only [reserveFor] at h
  simp only [PoolReserves.listed, FillInputs.pool]
  cases hindex : inputs.assetIndex[asset]? with
  | none =>
    rw [hindex] at h
    cases h
  | some index =>
    rw [hindex] at h
    exact h

theorem takeOver_handOver {inputs : FillInputs} {entry : String × Int} (hpos : 0 < entry.2)
    {map map' : BTreeMap Nat Int} (h : takeOver inputs map entry = .ok map') :
    handOver inputs map entry = .ok map' := by
  simp only [takeOver, bind_ok_iff] at h
  obtain ⟨⟨index, reserve⟩, hr, h⟩ := h
  have := addTo_ok h
  rw [if_neg (by omega)] at this
  simp only [handOver, reserveFor_listed hr, bind_ok_iff, pure_ok_iff]
  exact ⟨_, rfl, this.symm⟩

/-- What the request loops keep true of their working state: its positions
are what the requests so far do to the start, and its wallet and spend are
theirs. -/
structure Ledgered (inputs : FillInputs) (start : Positions) (w : Working) : Prop where
  replayed : w.actions.foldlM (applyAction inputs) start = .ok w.positions
  spending : Spending inputs.wallet w.wallet w.spend (w.actions.map FillAction.request)

theorem repayBid_ledgered {inputs start w w'} {entry : String × Int} (hw : Ledgered inputs start w)
    (h : repayBid inputs w entry = .ok w') : Ledgered inputs start w' := by
  obtain ⟨asset, dTokens⟩ := entry
  simp only [repayBid] at h
  split at h
  · rw [← pure_ok_iff.1 h]; exact hw
  simp only [bind_ok_iff, pure_ok_iff] at h
  obtain ⟨⟨index, reserve⟩, hr, owed, -, wanted, -, tokens, ht, left, hl, rest, hrest, spend, hs, rfl⟩ := h
  have hl := narrow_ok hl
  constructor
  · refine foldlM_concat_ok hw.replayed ?_
    simp only [applyAction, FillAction.request, applyRequest, reserveFor_listed hr, bind_ok_iff, pure_ok_iff]
    refine ⟨_, rfl, _, ht, ?_⟩
    simp only [setBalance, hl]
  · rw [List.map_append]
    exact hw.spending.repay (min_le_right _ _) hrest hs

theorem withdrawLot_ledgered {inputs start w w'} {asset : String} (hw : Ledgered inputs start w)
    (h : withdrawLot inputs w asset = .ok w') : Ledgered inputs start w' := by
  simp only [withdrawLot, bind_ok_iff] at h
  obtain ⟨⟨index, reserve⟩, hr, h⟩ := h
  split at h
  · rw [← pure_ok_iff.1 h]
    constructor
    · refine foldlM_concat_ok hw.replayed ?_
      simp only [applyAction, FillAction.request, applyRequest, reserveFor_listed hr, bind_ok_iff, pure_ok_iff]
      exact ⟨_, rfl, rfl⟩
    · rw [List.map_append]
      exact hw.spending.free fun _ => rfl
  · rw [← pure_ok_iff.1 h]; exact hw

/-- After the supply the wallet is no longer debited, so what is left to say
is the bound itself. -/
structure Funded (inputs : FillInputs) (start : Positions) (w : Working) : Prop where
  replayed : w.actions.foldlM (applyAction inputs) start = .ok w.positions
  spend : ∀ asset, w.spend.getD asset 0 = spentOn asset (w.actions.map FillAction.request)
  wallet : ∀ asset amount, w.spend[asset]? = some amount → amount ≤ inputs.wallet.getD asset 0

theorem Ledgered.funded {inputs start w} (hw : Ledgered inputs start w) : Funded inputs start w :=
  ⟨hw.replayed, hw.spending.spend_eq, fun _ _ h => hw.spending.within h⟩

theorem supplyPrimary_funded {terms inputs start w w' supply} (hw : Ledgered inputs start w)
    (h : supplyPrimary terms inputs w supply = .ok w') : Funded inputs start w' := by
  simp only [supplyPrimary] at h
  split at h
  case isFalse => rw [← pure_ok_iff.1 h]; exact hw.funded
  next hpos =>
  simp only [bind_ok_iff] at h
  obtain ⟨⟨index, reserve⟩, hr, bTokens, hb, h⟩ := h
  split at h
  case isFalse => rw [← pure_ok_iff.1 h]; exact hw.funded
  next hmint =>
  simp only [bind_ok_iff, pure_ok_iff] at h
  obtain ⟨collateral, hc, spend, hs, rfl⟩ := h
  have hleft : min supply (primaryLeft terms w) ≤ w.wallet.getD terms.primaryAsset 0 := by
    simp only [primaryLeft] at hpos ⊢; omega
  refine ⟨?_, fun a => ?_, fun a amount ha => ?_⟩
  · refine foldlM_concat_ok hw.replayed ?_
    simp only [applyAction, FillAction.request, applyRequest, reserveFor_listed hr, bind_ok_iff, pure_ok_iff]
    refine ⟨_, rfl, _, hb, ?_⟩
    have hc := addTo_ok hc
    rw [if_neg (by omega)] at hc
    simp only [raise, hc]
  · rw [addTo_getD hs, List.map_append, List.map_singleton, spentOn_concat, hw.spending.spend_eq a]
    simp [spentOn, FillAction.request]
  · have h1 := hw.spending.balance a
    have h2 := addTo_getD hs a
    rw [TreeMaps.getD_of_getElem? ha] at h2
    by_cases hk : terms.primaryAsset = a
    · subst hk; simp only [↓reduceIte] at h2; omega
    · simp only [hk, ↓reduceIte] at h2
      have hm := addTo_mem hs (TreeMaps.mem_of_getElem? ha)
      have h3 := hw.spending.funded a (hm.resolve_left hk)
      omega

/-- The filler's positions once the scaled auction is handed over and nothing
else has happened. -/
def handedOver (inputs : FillInputs) (toFill : AuctionData) : Except MathError Positions := do
  let collateral ← toFill.lot.toList.foldlM (handOver inputs) inputs.filler.collateral
  let liabilities ← toFill.bid.toList.foldlM (handOver inputs) inputs.filler.liabilities
  pure { inputs.filler with collateral, liabilities }

/-- The take-over loops add positive amounts alone, as the contract does. -/
theorem handedOver_of_takeOver {inputs : FillInputs} {ledger percent : Nat} {scaled : ScaledAuction}
    {collateral liabilities : BTreeMap Nat Int} (hscale : scaleAuction inputs.auction ledger percent = .ok scaled)
    (hc : scaled.toFill.lot.toList.foldlM (takeOver inputs) inputs.filler.collateral = .ok collateral)
    (hl : scaled.toFill.bid.toList.foldlM (takeOver inputs) inputs.filler.liabilities = .ok liabilities) :
    handedOver inputs scaled.toFill = .ok { inputs.filler with collateral, liabilities } := by
  obtain ⟨hbid, hlot⟩ := scaleAuction_pos hscale
  simp only [handedOver, bind_ok_iff, pure_ok_iff]
  exact ⟨_, foldlM_ok_congr (fun e he _ _ => takeOver_handOver (hlot.toList e he)) hc,
    _, foldlM_ok_congr (fun e he _ _ => takeOver_handOver (hbid.toList e he)) hl, rfl⟩

/-- What a projection says is what its own candidate does: the scaling, the
requests replayed on top of it, and the valuation of the result. -/
structure Exact (inputs : FillInputs) (ledger : Nat) (percent : FillPercent) (projection : Projection) :
    Prop where
  scaled : ∃ scaled start reserves, scaleAuction inputs.auction ledger percent.get = .ok scaled ∧
    handedOver inputs scaled.toFill = .ok start ∧
    projection.actions.foldlM (applyAction inputs) start = .ok projection.positions ∧
    valuationReserves inputs scaled = .ok reserves ∧
    calculatePositionData reserves inputs.prices projection.positions = .ok projection.data
  spend : ∀ asset, projection.spend.getD asset 0 = spentOn asset (projection.actions.map FillAction.request)
  wallet : ∀ asset amount, projection.spend[asset]? = some amount →
    amount ≤ inputs.wallet.getD asset 0

theorem project_exact {terms inputs ledger percent supply projection}
    (h : project terms inputs ledger percent supply = .ok projection) :
    Exact inputs ledger percent projection := by
  simp only [project, bind_ok_iff, pure_ok_iff] at h
  obtain ⟨⟨toFill, remaining⟩, hscale, collateral, hc, liabilities, hl, w₁, h₁, w₂, h₂, w₃, h₃, reserves,
    hres, data, hdata, rfl⟩ := h
  have hstart := handedOver_of_takeOver hscale hc hl
  let start : Positions := { inputs.filler with collateral, liabilities }
  have hw₀ : Ledgered inputs start ⟨start, inputs.wallet, [], ∅⟩ :=
    ⟨rfl, Spending.start _⟩
  have hw₁ := foldlM_inv (fun _ => Ledgered inputs start) (fun _ _ _ _ => repayBid_ledgered) hw₀ h₁
  have hw₂ := foldlM_inv (fun _ => Ledgered inputs start) (fun _ _ _ _ => withdrawLot_ledgered) hw₁ h₂
  have hw₃ := supplyPrimary_funded hw₂ h₃
  exact ⟨⟨_, start, reserves, hscale, hstart, hw₃.replayed, hres, hdata⟩, hw₃.spend, hw₃.wallet⟩

/-! ## What leaves through `settle` -/

theorem settle_fill {terms inputs ledger percent projection d}
    (h : settle terms inputs ledger percent projection = .ok (.fill d)) :
    overPositions terms inputs projection = false ∧ draft inputs ledger percent projection = .ok d ∧
      (terms.forceFill = true ∨ 0 < d.estProfit) := by
  simp only [settle] at h
  split at h
  · simp [pure, Except.pure] at h
  next hover =>
  simp only [bind_ok_iff] at h
  obtain ⟨d', hd, h⟩ := h
  split at h
  · simp [pure, Except.pure] at h
  next hprofit =>
  simp only [pure_ok_iff, PlannedFill.fill.injEq] at h
  subst h
  refine ⟨by simpa using hover, hd, ?_⟩
  simp only [Bool.and_eq_true, Bool.not_eq_true', decide_eq_true_eq, not_and] at hprofit
  cases hf : terms.forceFill with
  | true => exact .inl rfl
  | false => exact .inr (by have := hprofit hf; omega)

/-- The draft carries its candidate and its projection's requests unchanged. -/
theorem draft_ok {inputs ledger percent projection d} (h : draft inputs ledger percent projection = .ok d) :
    d.fillLedger = ledger ∧ d.percent = percent ∧ d.actions = projection.actions ∧
      d.spend = projection.spend := by
  simp only [draft, bind_ok_iff, pure_ok_iff] at h
  obtain ⟨_, -, _, -, _, -, _, -, rfl⟩ := h
  exact ⟨rfl, rfl, rfl, rfl⟩

theorem healthy_cases {terms projection} (h : healthy terms projection = .ok true) :
    projection.positions.liabilities.isEmpty = true ∨
      projection.data.isHfUnder terms.healthFloor = .ok false ∧
        terms.minCollateral ≤ projection.data.collateralBase := by
  simp only [healthy] at h
  split at h
  · next he => exact .inl he
  · simp only [bind_ok_iff, pure_ok_iff, Bool.and_eq_true, Bool.not_eq_true', decide_eq_true_eq] at h
    obtain ⟨under, hu, rfl, hm⟩ := h
    exact .inr ⟨hu, hm⟩

theorem overPositions_false {terms inputs projection} (h : overPositions terms inputs projection = false) :
    projection.positions.effectiveCount ≤ inputs.filler.effectiveCount ∨
      projection.positions.effectiveCount ≤ terms.maxPositions := by
  simp only [overPositions, Bool.and_eq_false_iff, Bool.or_eq_false_iff, decide_eq_false_iff_not] at h
  omega

/-- Every draft is settled from a candidate at or past both the earliest
ledger and the auction's start. -/
theorem planFill_candidate {terms inputs d} {S : Int → Prop} (hS : Widens terms inputs S) (h0 : S 0)
    (h : planFill terms inputs = .ok (.fill d)) :
    ∃ ledger percent projection, max inputs.earliestLedger inputs.auction.block ≤ ledger ∧
      Candidate terms inputs ledger percent projection ∧
      (∃ supply, S supply ∧ project terms inputs ledger percent supply = .ok projection) ∧
      settle terms inputs ledger percent projection = .ok (.fill d) := by
  simp only [planFill, bind_ok_iff] at h
  obtain ⟨_, -, whole, -, h⟩ := h
  split at h
  · simp [pure, Except.pure] at h
  simp only [bind_ok_iff] at h
  obtain ⟨delay, -, target, -, reach, -, h⟩ := h
  obtain ⟨ledger, percent, projection, hle, hc, hsupply, hs⟩ := planRounds_fill hS h0 h
  exact ⟨ledger, percent, projection, (le_max_right _ _).trans hle, hc, hsupply, hs⟩

/-- **`plan_fill` is sound.** The draft, replayed with the contract's
arithmetic, leaves the filler within its floors; it spends exactly what its
requests take and never more than the wallet holds; it names no percent
above the cap and no ledger before the earliest or the auction's start; it
raises the position count only within `max_positions`; and unless the pool
forces fills it pays. -/
theorem planFill_sound {terms : FillTerms} {inputs : FillInputs} {d : FillDraft}
    (h : planFill terms inputs = .ok (.fill d)) :
    ∃ after, replay inputs d = .ok after ∧ WithinFloors terms inputs d after ∧
      (∀ asset, d.spend.getD asset 0 = spentOn asset (d.actions.map FillAction.request)) ∧
      (∀ asset amount, d.spend[asset]? = some amount → amount ≤ inputs.wallet.getD asset 0) ∧
      d.percent.get ≤ inputs.maxPercent.get ∧
      max inputs.earliestLedger inputs.auction.block ≤ d.fillLedger ∧
      (after.effectiveCount ≤ inputs.filler.effectiveCount ∨
        after.effectiveCount ≤ terms.maxPositions) ∧
      (terms.forceFill = true ∨ 0 < d.estProfit) := by
  obtain ⟨ledger, percent, projection, hle, hc, -, hs⟩ := planFill_candidate widens_true trivial h
  obtain ⟨hover, hd, hprofit⟩ := settle_fill hs
  obtain ⟨rfl, rfl, ha, hsp⟩ := draft_ok hd
  obtain ⟨supply, hp⟩ := hc.projected
  have hx := project_exact hp
  obtain ⟨scaled, start, reserves, hscale, hstart, hrun, hres, hdata⟩ := hx.scaled
  refine ⟨projection.positions, ?_, ?_, ?_, ?_, hc.percent_le, hle, overPositions_false hover, hprofit⟩
  · simp only [handedOver, bind_ok_iff, pure_ok_iff] at hstart
    obtain ⟨collateral, hcol, liabilities, hlia, rfl⟩ := hstart
    simp only [replay, hscale, bind_ok_iff, ha]
    exact ⟨scaled, rfl, collateral, hcol, liabilities, hlia, hrun⟩
  · rcases healthy_cases hc.healthy with he | ⟨hu, hm⟩
    · exact .inl he
    · refine .inr ⟨reserves, projection.data, ?_, hdata, hu, hm⟩
      simp only [valuedAgainst, hscale, bind_ok_iff]
      exact ⟨scaled, rfl, hres⟩
  · rw [hsp, ha]; exact hx.spend
  · rw [hsp]; exact hx.wallet

/-! ## A fill that is planned -/

/-- A reserve of seven decimals at a b-rate of 1.05 and a d-rate of 1.1. -/
def sampleReserve (asset : String) (index cFactor lFactor : Nat) : Reserve where
  asset := asset
  config :=
    { index, decimals := 7, cFactor, lFactor, util := 5000000, maxUtil := 9500000, rBase := 100000
      rOne := 500000, rTwo := 5000000, rThree := 15000000, reactivity := 20
      supplyCap := 10 ^ 18, enabled := true }
  data :=
    { dRate := 1100000000000, bRate := 1050000000000, irMod := SCALAR_7, bSupply := 10 ^ 13
      dSupply := 10 ^ 12, backstopCredit := 0, lastTime := 0 }
  scalar := 10 ^ 7
  scalar_eq := SCALAR_7_eq

/-- USDC at one, XLM at a tenth. -/
def samplePrices : OraclePrices where
  decimals := 7
  scalar := 10 ^ 7
  prices := (∅ : BTreeMap String Int).insert "USDC" 10000000 |>.insert "XLM" 1000000
  scalar_eq := SCALAR_7_eq
  prices_pos := fun asset price h => by
    simp only [TreeMaps.getElem?_insert] at h
    split at h
    · cases h; decide
    · split at h
      · cases h; decide
      · simp at h

/-- The two reserves of the sample pool: USDC, the primary, and XLM. -/
def sampleReserves : BTreeMap Nat Reserve :=
  (∅ : BTreeMap Nat Reserve).insert 0 (sampleReserve "USDC" 0 9500000 9500000)
    |>.insert 1 (sampleReserve "XLM" 1 7500000 7500000)

def sampleAssetIndex : BTreeMap String Nat :=
  (∅ : BTreeMap String Nat).insert "USDC" 0 |>.insert "XLM" 1

def sampleTerms : FillTerms where
  minCollateral := 100
  maxPositions := 4
  supplyAllowed := true
  primaryAsset := "USDC"
  healthFloor := 11000000
  profitBps := 500
  forceFill := false
  objective := .earliestProfitable
  planIterations := 4

/-- A borrower's XLM auctioned off against USDC, which the filler's wallet
repays only in part. -/
def sampleInputs : FillInputs where
  reserves := sampleReserves
  assetIndex := sampleAssetIndex
  prices := samplePrices
  filler := { collateral := (∅ : BTreeMap Nat Int).insert 0 1000000000 }
  borrower := { collateral := (∅ : BTreeMap Nat Int).insert 1 9000000000
                liabilities := (∅ : BTreeMap Nat Int).insert 0 700000000 }
  wallet := (∅ : BTreeMap String Int).insert "USDC" 50000000
  auction := { bid := (∅ : BTreeMap String Int).insert "USDC" 600000000
               lot := (∅ : BTreeMap String Int).insert "XLM" 8000000000, block := 1000 }
  earliestLedger := 1010
  maxPercent := ⟨100, by decide, by decide⟩

/-- The draft of an answer that has one. -/
def plannedDraft : Except MathError PlannedFill → Option FillDraft
  | .ok (.fill d) => some d
  | _ => none

theorem plannedDraft_some {r : Except MathError PlannedFill} {d : FillDraft}
    (h : plannedDraft r = some d) : r = .ok (.fill d) := by
  cases r with
  | error e => cases h
  | ok p =>
    cases p with
    | fill d' => cases h; rfl
    | skip s => cases h

/-- The sample auction is filled, and its draft keeps the filler within its
floors. -/
theorem planFill_sound_sample :
    ∃ d after, planFill sampleTerms sampleInputs = .ok (.fill d) ∧ replay sampleInputs d = .ok after ∧
      WithinFloors sampleTerms sampleInputs d after ∧ d.percent.get ≤ 100 ∧ 1010 ≤ d.fillLedger := by
  have hsome : (plannedDraft (planFill sampleTerms sampleInputs)).isSome = true := by decide +kernel
  obtain ⟨d, hd⟩ := Option.isSome_iff_exists.1 hsome
  have h := plannedDraft_some hd
  obtain ⟨after, hreplay, hfloors, -, -, hpercent, hledger, -, -⟩ := planFill_sound h
  have hearliest : 1010 ≤ max sampleInputs.earliestLedger sampleInputs.auction.block := by decide
  exact ⟨d, after, h, hreplay, hfloors, hpercent, hearliest.trans hledger⟩

end BlendLiquidator
