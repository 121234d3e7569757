/-
`supply_headroom` is exact: it answers with the largest supply the cap admits,
and no fill drafts a larger one.

Whether an amount fits is monotone, through two floors, so the search has one
place to end. What a round widens the supply to is at most what the search
answered, and what a projection supplies at most what the round came to.
-/
import Mathlib.Logic.Relation
import BlendLiquidator.FillSound

namespace BlendLiquidator

open Results

section Room

variable {reserve : Reserve} {amount smaller wanted h : Int}

/-- The pool's total supply once `amount` has been supplied. -/
def supplyAfter (reserve : Reserve) (amount : Int) : Int :=
  (reserve.data.bSupply + amount * SCALAR_12 / reserve.data.bRate) * reserve.data.bRate / SCALAR_12

theorem fits_ok_iff (hrate : 0 < reserve.data.bRate) {b : Bool} :
    fits reserve amount = .ok b ↔
      (∃ minted after total, reserve.toBTokenDown amount = .ok minted ∧ narrow (reserve.data.bSupply + minted) = .ok after ∧
        reserve.toAssetFromBToken after = .ok total) ∧ b = decide (supplyAfter reserve amount ≤ reserve.config.supplyCap) := by
  simp only [fits, bind_ok_iff, pure_ok_iff]
  have htotal : ∀ minted after total, reserve.toBTokenDown amount = .ok minted →
      narrow (reserve.data.bSupply + minted) = .ok after → reserve.toAssetFromBToken after = .ok total →
      total = supplyAfter reserve amount := by
    intro minted after total hminted hafter htotal
    rw [Reserve.toBTokenDown, divFloor_eq hrate] at hminted
    rw [Reserve.toAssetFromBToken, mulFloor_eq SCALAR_12_pos] at htotal
    rw [narrow_ok htotal, narrow_ok hafter, narrow_ok hminted, supplyAfter]
  constructor
  · rintro ⟨minted, hminted, after, hafter, total, ht, rfl⟩
    exact ⟨⟨minted, after, total, hminted, hafter, ht⟩, by rw [htotal _ _ _ hminted hafter ht]⟩
  · rintro ⟨⟨minted, after, total, hminted, hafter, ht⟩, rfl⟩
    exact ⟨minted, hminted, after, hafter, total, ht, by rw [htotal _ _ _ hminted hafter ht]⟩

theorem supplyAfter_mono (hrate : 0 < reserve.data.bRate) (hle : smaller ≤ amount) :
    supplyAfter reserve smaller ≤ supplyAfter reserve amount := by
  have hminted : smaller * SCALAR_12 / reserve.data.bRate ≤ amount * SCALAR_12 / reserve.data.bRate :=
    Int.ediv_le_ediv hrate (Int.mul_le_mul_of_nonneg_right hle SCALAR_12_pos.le)
  refine Int.ediv_le_ediv SCALAR_12_pos (Int.mul_le_mul_of_nonneg_right ?_ hrate.le)
  omega

/-- Where an amount is found to fit or not, so is a smaller one. -/
theorem fits_of_le (hrate : 0 < reserve.data.bRate) (hsupply : 0 ≤ reserve.data.bSupply) (h0 : 0 ≤ smaller)
    (hle : smaller ≤ amount) {b : Bool} (hfits : fits reserve amount = .ok b) :
    fits reserve smaller = .ok (decide (supplyAfter reserve smaller ≤ reserve.config.supplyCap)) := by
  obtain ⟨⟨minted, after, total, hminted, hafter, htotal⟩, -⟩ := (fits_ok_iff hrate).1 hfits
  refine (fits_ok_iff hrate).2 ⟨?_, rfl⟩
  rw [Reserve.toBTokenDown, divFloor_eq hrate] at hminted ⊢
  simp only [Reserve.toAssetFromBToken, mulFloor_eq SCALAR_12_pos] at htotal ⊢
  obtain ⟨rfl, -, hmintedMax⟩ := narrow_ok_iff.1 hminted
  obtain ⟨rfl, -, hafterMax⟩ := narrow_ok_iff.1 hafter
  obtain ⟨rfl, -, htotalMax⟩ := narrow_ok_iff.1 htotal
  have hmono : smaller * SCALAR_12 / reserve.data.bRate ≤ amount * SCALAR_12 / reserve.data.bRate :=
    Int.ediv_le_ediv hrate (Int.mul_le_mul_of_nonneg_right hle SCALAR_12_pos.le)
  have hminted0 : 0 ≤ smaller * SCALAR_12 / reserve.data.bRate :=
    Int.ediv_nonneg (Int.mul_nonneg h0 SCALAR_12_pos.le) hrate.le
  have hafter0 : 0 ≤ reserve.data.bSupply + smaller * SCALAR_12 / reserve.data.bRate := by omega
  refine ⟨_, _, _, narrow_of_le hminted0 hmono hmintedMax, narrow_of_le hafter0 (by omega) hafterMax,
    narrow_of_le (Int.ediv_nonneg (Int.mul_nonneg hafter0 hrate.le) SCALAR_12_pos.le) ?_ htotalMax⟩
  exact supplyAfter_mono hrate hle

theorem fits_true_of_le (hrate : 0 < reserve.data.bRate) (hsupply : 0 ≤ reserve.data.bSupply) (h0 : 0 ≤ smaller)
    (hle : smaller ≤ amount) (hfits : fits reserve amount = .ok true) : fits reserve smaller = .ok true := by
  have hcap : supplyAfter reserve amount ≤ reserve.config.supplyCap := by
    simpa using ((fits_ok_iff hrate).1 hfits).2
  rw [fits_of_le hrate hsupply h0 hle hfits, decide_eq_true ((supplyAfter_mono hrate hle).trans hcap)]

theorem fits_false_of_le (hrate : 0 < reserve.data.bRate) (hsupply : 0 ≤ reserve.data.bSupply) {larger : Int}
    (h0 : 0 ≤ amount) (hle : amount ≤ smaller) (hlarger : smaller ≤ larger) {b : Bool}
    (hfits : fits reserve amount = .ok false) (hknown : fits reserve larger = .ok b) :
    fits reserve smaller = .ok false := by
  have hcap : ¬supplyAfter reserve amount ≤ reserve.config.supplyCap := by
    simpa using ((fits_ok_iff hrate).1 hfits).2
  rw [fits_of_le hrate hsupply (h0.trans hle) hlarger hknown]
  rw [decide_eq_false fun hsmall => hcap ((supplyAfter_mono hrate hle).trans hsmall)]

/-! ## The search -/

/-- The midpoint a pass tries. -/
def midpoint (low high : Int) : Int := low + (high - low) / 2 + (high - low) % 2

/-- A pass of the search, from one interval to the next. -/
inductive SearchPass (reserve : Reserve) : Int × Int → Int × Int → Prop
  | fits {low high : Int} (hlt : low < high) (h : fits reserve (midpoint low high) = .ok true) :
      SearchPass reserve (low, high) (midpoint low high, high)
  | exceeds {low high : Int} (hlt : low < high) (h : fits reserve (midpoint low high) = .ok false) :
      SearchPass reserve (low, high) (low, midpoint low high - 1)

/-- Every interval the search comes to lies in the first. -/
theorem searchPass_within (hwanted : 0 ≤ wanted) {interval : Int × Int}
    (h : Relation.ReflTransGen (SearchPass reserve) (0, wanted) interval) :
    0 ≤ interval.1 ∧ interval.1 ≤ interval.2 ∧ interval.2 ≤ wanted := by
  induction h with
  | refl => exact ⟨le_rfl, hwanted, le_rfl⟩
  | tail _ hpass ih =>
    cases hpass with
    | fits hlt _ | exceeds hlt _ =>
      simp only [midpoint] at *
      omega

/-- No operation of a pass leaves `i128`, which the source does not check. -/
def PassInRange (interval : Int × Int) : Prop :=
  let width := interval.2 - interval.1
  ∀ x ∈ [width, interval.1 + width / 2, midpoint interval.1 interval.2, midpoint interval.1 interval.2 - 1],
    i128Min ≤ x ∧ x ≤ i128Max

theorem passInRange {low high : Int} (h0 : 0 ≤ low) (hlt : low < high) (hmax : high ≤ i128Max) :
    PassInRange (low, high) := by
  have hmin : i128Min ≤ 0 := by decide
  intro x hx
  simp only [List.mem_cons, List.not_mem_nil, or_false, midpoint] at hx
  omega

/-- The search ends on the last amount that fits, of an interval whose lower end
does or is zero and above whose upper end none does. -/
theorem headroomSearch_exact (hrate : 0 < reserve.data.bRate) (hsupply : 0 ≤ reserve.data.bSupply) {b : Bool}
    (hknown : fits reserve wanted = .ok b) : ∀ {low high : Int}, 0 ≤ low → low ≤ high → high ≤ wanted →
    (low = 0 ∨ fits reserve low = .ok true) → (∀ amount, high < amount → amount ≤ wanted → fits reserve amount = .ok false) →
    ∃ h, headroomSearch reserve low high = .ok h ∧ low ≤ h ∧ h ≤ high ∧ (h = 0 ∨ fits reserve h = .ok true) ∧
      ∀ amount, h < amount → amount ≤ wanted → fits reserve amount = .ok false := by
  intro low high
  fun_induction headroomSearch reserve low high with
  | case1 low high hlt mid ihfits ihexceeds =>
    intro h0 hle hwanted hlow hhigh
    have hmid : mid = low + (high - low) / 2 + (high - low) % 2 := rfl
    have hanswer := fits_of_le hrate hsupply (by omega : 0 ≤ mid) (by omega) hknown
    by_cases hcap : supplyAfter reserve mid ≤ reserve.config.supplyCap
    · rw [decide_eq_true hcap] at hanswer
      simp only [hanswer, bind, Except.bind, if_true]
      obtain ⟨h, hh, hlo, hhi, rest⟩ := ihfits (by omega) (by omega) hwanted (.inr hanswer) hhigh
      exact ⟨h, hh, by omega, hhi, rest⟩
    · rw [decide_eq_false hcap] at hanswer
      simp only [hanswer, bind, Except.bind, Bool.false_eq_true, if_false]
      obtain ⟨h, hh, hlo, hhi, rest⟩ := ihexceeds h0 (by omega) (by omega) hlow fun amount hlarger hw =>
        fits_false_of_le hrate hsupply (by omega : 0 ≤ mid) (by omega) hw hanswer hknown
      exact ⟨h, hh, hlo, by omega, rest⟩
  | case2 low high hge =>
    intro h0 hle hwanted hlow hhigh
    have hsame : low = high := by omega
    subst hsame
    exact ⟨low, rfl, le_rfl, le_rfl, hlow, hhigh⟩

/-- What the headroom for a wanted supply says. -/
structure Headroom (reserve : Reserve) (wanted h : Int) : Prop where
  nonneg : 0 ≤ h
  le : h ≤ max wanted 0
  fitting : fits reserve 0 = .ok true → fits reserve h = .ok true
  breached : fits reserve 0 ≠ .ok true → h = 0
  largest : ∀ amount, h < amount → amount ≤ wanted → fits reserve amount = .ok false

theorem headroom_of_search (hrate : 0 < reserve.data.bRate) (hsupply : 0 ≤ reserve.data.bSupply) (h0 : 0 ≤ h)
    (hle : h ≤ max wanted 0) (hfits : h = 0 ∨ fits reserve h = .ok true)
    (hlargest : ∀ amount, h < amount → amount ≤ wanted → fits reserve amount = .ok false) :
    Headroom reserve wanted h := by
  refine ⟨h0, hle, fun hzero => ?_, fun hnone => ?_, hlargest⟩
  · rcases hfits with rfl | hfits
    · exact hzero
    · exact hfits
  · rcases hfits with hzero | hfits
    · exact hzero
    · exact absurd (fits_true_of_le hrate hsupply le_rfl h0 hfits) hnone

theorem supplyHeadroom_headroom (hrate : 0 < reserve.data.bRate) (hsupply : 0 ≤ reserve.data.bSupply)
    (hok : supplyHeadroom reserve wanted = .ok h) : Headroom reserve wanted h := by
  unfold supplyHeadroom at hok
  by_cases hwanted : wanted ≤ 0
  · rw [if_pos hwanted, pure_ok_iff] at hok
    subst hok
    exact headroom_of_search hrate hsupply le_rfl (by omega) (.inl rfl) fun amount _ _ => by omega
  rw [if_neg hwanted] at hok
  simp only [bind_ok_iff] at hok
  obtain ⟨b, hb, hok⟩ := hok
  cases b with
  | true =>
    rw [if_pos rfl, pure_ok_iff] at hok
    subst hok
    exact headroom_of_search hrate hsupply (by omega) (by omega) (.inr hb) fun amount _ _ => by omega
  | false =>
    rw [if_neg Bool.false_ne_true] at hok
    obtain ⟨h', hh', hlow, hhigh, hfits, hlargest⟩ := headroomSearch_exact hrate hsupply hb le_rfl
      (by omega : (0 : Int) ≤ wanted) le_rfl (.inl rfl) fun amount _ _ => by omega
    rw [hok] at hh'
    cases hh'
    exact headroom_of_search hrate hsupply hlow (by omega) hfits hlargest

end Room

/-! ## What a fill supplies -/

section Drafts

variable {terms : FillTerms} {inputs : FillInputs}

/-- No supply among the requests. -/
def NoSupply (w : Working) : Prop := ∀ asset amount, .supplyCollateral asset amount ∉ w.actions

theorem repayBid_noSupply {w w' : Working} {entry : String × Int} (hw : NoSupply w)
    (h : repayBid inputs w entry = .ok w') : NoSupply w' := by
  simp only [repayBid] at h
  split at h
  · rw [← pure_ok_iff.1 h]
    exact hw
  · simp only [bind_ok_iff, pure_ok_iff] at h
    obtain ⟨_, -, _, -, _, -, _, -, _, -, _, -, _, -, rfl⟩ := h
    intro asset amount hmem
    rcases List.mem_append.1 hmem with hmem | hmem
    · exact hw asset amount hmem
    · simp at hmem

theorem withdrawLot_noSupply {w w' : Working} {asset : String} (hw : NoSupply w)
    (h : withdrawLot inputs w asset = .ok w') : NoSupply w' := by
  simp only [withdrawLot, bind_ok_iff] at h
  obtain ⟨_, -, h⟩ := h
  split at h
  · rw [← pure_ok_iff.1 h]
    intro other amount hmem
    rcases List.mem_append.1 hmem with hmem | hmem
    · exact hw other amount hmem
    · simp at hmem
  · rw [← pure_ok_iff.1 h]
    exact hw

/-- A supply among a projection's requests is of the primary, mints something,
and is at most what the projection was given. -/
theorem project_supplies {ledger : Nat} {percent : FillPercent} {supply amount : Int} {projection : Projection}
    {asset : String} (h : project terms inputs ledger percent supply = .ok projection)
    (hmem : .supplyCollateral asset amount ∈ projection.actions) :
    asset = terms.primaryAsset ∧ 0 < amount ∧ amount ≤ supply ∧ ∃ index reserve minted,
      reserveFor inputs terms.primaryAsset = .ok (index, reserve) ∧ reserve.toBTokenDown amount = .ok minted ∧
      0 < minted := by
  simp only [project, bind_ok_iff, pure_ok_iff] at h
  obtain ⟨_, -, _, -, _, -, w₁, h₁, w₂, h₂, w₃, h₃, _, -, _, -, rfl⟩ := h
  have hw₁ := foldlM_inv (fun _ => NoSupply) (fun _ _ _ _ => repayBid_noSupply)
    (fun _ _ hm => by simp at hm) h₁
  have hw₂ := foldlM_inv (fun _ => NoSupply) (fun _ _ _ _ => withdrawLot_noSupply) hw₁ h₂
  simp only [supplyPrimary] at h₃
  split at h₃
  case isFalse =>
    rw [← pure_ok_iff.1 h₃] at hmem
    exact absurd hmem (hw₂ asset amount)
  next hpos =>
  simp only [bind_ok_iff] at h₃
  obtain ⟨⟨index, reserve⟩, hreserve, minted, hminted, h₃⟩ := h₃
  split at h₃
  case isFalse =>
    rw [← pure_ok_iff.1 h₃] at hmem
    exact absurd hmem (hw₂ asset amount)
  next hmints =>
  simp only [bind_ok_iff, pure_ok_iff] at h₃
  obtain ⟨_, -, _, -, rfl⟩ := h₃
  rcases List.mem_append.1 hmem with hmem | hmem
  · exact absurd hmem (hw₂ asset amount)
  · rw [List.mem_singleton] at hmem
    cases hmem
    exact ⟨rfl, hpos, min_le_left _ _, index, reserve, minted, hreserve, hminted, hmints⟩

/-- Nothing to supply, or what the cap admits. -/
def Admitted (reserve : Reserve) (supply : Int) : Prop := supply ≤ 0 ∨ fits reserve supply = .ok true

variable {index : Nat} {reserve : Reserve} (hprimary : reserveFor inputs terms.primaryAsset = .ok (index, reserve))
  (hrate : 0 < reserve.data.bRate) (hsupply : 0 ≤ reserve.data.bSupply)

include hprimary hrate hsupply

theorem widens_admitted : Widens terms inputs (Admitted reserve) := by
  intro projection r wider hwider _ _
  simp only [widenSupply, bind_ok_iff, pure_ok_iff] at hwider
  obtain ⟨more, -, wanted, -, found, hfound, room, hroom, rfl⟩ := hwider
  rw [hprimary] at hfound
  cases hfound
  have hheadroom := supplyHeadroom_headroom hrate hsupply hroom
  by_cases hpos : min (min wanted projection.primaryAvailable) room ≤ 0
  · exact .inl hpos
  have hzero : fits reserve 0 = .ok true := by
    by_contra hnot
    have := hheadroom.breached hnot
    omega
  exact .inr (fits_true_of_le hrate hsupply (Int.not_le.1 hpos).le (min_le_right _ _) (hheadroom.fitting hzero))

theorem planFill_supply_fits {d : FillDraft} (h : planFill terms inputs = .ok (.fill d)) {asset : String}
    {amount : Int} (hmem : .supplyCollateral asset amount ∈ d.actions) :
    asset = terms.primaryAsset ∧ fits reserve amount = .ok true := by
  obtain ⟨ledger, percent, projection, -, -, ⟨supply, hadmitted, hp⟩, hs⟩ :=
    planFill_candidate (widens_admitted hprimary hrate hsupply) (.inl le_rfl) h
  obtain ⟨-, hd, -⟩ := settle_fill hs
  obtain ⟨-, -, ha, -⟩ := draft_ok hd
  rw [ha] at hmem
  obtain ⟨hasset, hpos, hle, -⟩ := project_supplies hp hmem
  rcases hadmitted with hnone | hfits
  · omega
  · exact ⟨hasset, fits_true_of_le hrate hsupply hpos.le hle hfits⟩

end Drafts

/-- The headroom is the largest supply within the cap, its search stays in range
and comes to an end, and no fill whose primary this is drafts a supply the cap
refuses. -/
theorem supplyHeadroom_exact {reserve : Reserve} {wanted : Int} (hrate : 0 < reserve.data.bRate)
    (hsupply : 0 ≤ reserve.data.bSupply) (hwanted : wanted ≤ i128Max) :
    (∀ h, supplyHeadroom reserve wanted = .ok h → Headroom reserve wanted h) ∧
    (∀ b, fits reserve wanted = .ok b → ∃ h, supplyHeadroom reserve wanted = .ok h) ∧
    (0 ≤ wanted → ∀ interval, Relation.ReflTransGen (SearchPass reserve) (0, wanted) interval →
      interval.1 < interval.2 → PassInRange interval) ∧
    ∀ (terms : FillTerms) (inputs : FillInputs) (index : Nat) (d : FillDraft),
      reserveFor inputs terms.primaryAsset = .ok (index, reserve) → planFill terms inputs = .ok (.fill d) →
      ∀ asset amount, .supplyCollateral asset amount ∈ d.actions → asset = terms.primaryAsset ∧
        fits reserve amount = .ok true ∧ supplyAfter reserve amount ≤ reserve.config.supplyCap := by
  refine ⟨fun h hok => supplyHeadroom_headroom hrate hsupply hok, fun b hb => ?_, fun h0 interval hreach hlt => ?_, ?_⟩
  · unfold supplyHeadroom
    by_cases hpos : wanted ≤ 0
    · exact ⟨0, by rw [if_pos hpos]; rfl⟩
    · rw [if_neg hpos]
      simp only [hb, bind, Except.bind]
      cases b with
      | true => exact ⟨wanted, rfl⟩
      | false =>
        obtain ⟨h, hh, -⟩ := headroomSearch_exact hrate hsupply hb le_rfl (by omega : (0 : Int) ≤ wanted) le_rfl
          (.inl rfl) fun amount _ _ => by omega
        exact ⟨h, hh⟩
  · obtain ⟨hlow, -, hhigh⟩ := searchPass_within h0 hreach
    exact passInRange hlow hlt (hhigh.trans hwanted)
  · intro terms inputs index d hprimary hplan asset amount hmem
    obtain ⟨hasset, hfits⟩ := planFill_supply_fits hprimary hrate hsupply hplan hmem
    exact ⟨hasset, hfits, by simpa using ((fits_ok_iff hrate).1 hfits).2⟩

/-- The sample fill by a filler that owes XLM already, with a wallet that can
supply after it repays. -/
def supplyingInputs : FillInputs :=
  { sampleInputs with
    filler := { collateral := (∅ : BTreeMap Nat Int).insert 0 1000000000
                liabilities := (∅ : BTreeMap Nat Int).insert 1 8000000000 }
    wallet := (∅ : BTreeMap String Int).insert "USDC" 1000000000 }

def supplyingTerms : FillTerms := { sampleTerms with healthFloor := 15000000 }

/-- It supplies, and within the cap. -/
theorem supplyHeadroom_exact_sample : ∃ d, planFill supplyingTerms supplyingInputs = .ok (.fill d) ∧
    .supplyCollateral "USDC" 255526319 ∈ d.actions ∧
    fits (sampleReserve "USDC" 0 9500000 9500000) 255526319 = .ok true ∧
    ∃ h, supplyHeadroom (sampleReserve "USDC" 0 9500000 9500000) (2 * 10 ^ 18) = .ok h ∧
      Headroom (sampleReserve "USDC" 0 9500000 9500000) (2 * 10 ^ 18) h := by
  have hactions : (plannedDraft (planFill supplyingTerms supplyingInputs)).map FillDraft.actions =
      some [.repay "USDC" 660066001, .supplyCollateral "USDC" 255526319] := by decide +kernel
  obtain ⟨d, hd, ha⟩ := Option.map_eq_some_iff.1 hactions
  have hplan := plannedDraft_some hd
  obtain ⟨hexact, htotal, -, hdrafts⟩ := @supplyHeadroom_exact (sampleReserve "USDC" 0 9500000 9500000) (2 * 10 ^ 18)
    (by decide) (by decide) (by decide)
  obtain ⟨h, hh⟩ := htotal false (by decide)
  have hmem : .supplyCollateral "USDC" 255526319 ∈ d.actions := by rw [ha]; simp
  have hprimary : reserveFor supplyingInputs supplyingTerms.primaryAsset =
      .ok (0, sampleReserve "USDC" 0 9500000 9500000) := by decide
  exact ⟨d, hplan, hmem, (hdrafts supplyingTerms supplyingInputs 0 d hprimary hplan _ _ hmem).2.1, h, hh, hexact h hh⟩

end BlendLiquidator
