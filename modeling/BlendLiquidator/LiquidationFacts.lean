/-
What the auctioneer's arithmetic answers.

`position_values` and `calculate_position_data` are two loops over the same
entries. Both value an entry as `collateralWorth` and `liabilityWorth` do, so
the lists hold what the valuation sums, and the valuation can only fail where
the lists do, or on a sum.

The selection only ever takes counts within the lists: it starts at one of
each, and raises a count only below its list's length. What it answers with is
trimmed to the cap, at least one asset on each side.
-/
import BlendLiquidator.Liquidation
import BlendLiquidator.Valuation

namespace BlendLiquidator

open Results

/-! ## The two valuations -/

/-- What a loop that passes over the zero entries values, in order. -/
def Valued (value : Nat × Int → Except MathError PositionValue) (entries : List (Nat × Int)) (values : List PositionValue) :
    Prop :=
  List.Forall₂ (fun entry found => value entry = .ok found) (entries.filter fun entry => entry.2 ≠ 0) values

section Valued

variable {value : Nat × Int → Except MathError PositionValue} {entry : Nat × Int} {entries : List (Nat × Int)}
  {values : List PositionValue}

theorem valued_cons_zero (h : entry.2 = 0) : Valued value (entry :: entries) values ↔ Valued value entries values := by
  simp [Valued, h]

theorem valued_cons (h : entry.2 ≠ 0) :
    Valued value (entry :: entries) values ↔
      ∃ found rest, value entry = .ok found ∧ Valued value entries rest ∧ values = found :: rest := by
  simp [Valued, h, List.forall₂_cons_left_iff]

/-- There are such values where each entry is valued. -/
theorem exists_valued : (∃ values, Valued value entries values) ↔
    ∀ entry ∈ entries, entry.2 ≠ 0 → ∃ found, value entry = .ok found := by
  induction entries with
  | nil => simp [Valued]
  | cons entry entries ih =>
    rw [List.forall_mem_cons, ← ih]
    by_cases hzero : entry.2 = 0
    · simp [valued_cons_zero hzero, hzero]
    · simp only [valued_cons hzero, hzero, ne_eq, not_false_eq_true, forall_const]
      constructor
      · intro ⟨_, found, rest, hfound, hrest, _⟩
        exact ⟨⟨found, hfound⟩, rest, hrest⟩
      · intro ⟨⟨found, hfound⟩, rest, hrest⟩
        exact ⟨_, found, rest, hfound, hrest, rfl⟩

/-- Only one list is the entries' values. -/
theorem Valued.unique {values' : List PositionValue} (h : Valued value entries values) (h' : Valued value entries values') :
    values = values' := by
  unfold Valued at h h'
  generalize entries.filter (fun entry => entry.2 ≠ 0) = kept at h h'
  induction h generalizing values' with
  | nil => cases h'; rfl
  | cons hhead _ ih =>
    cases h' with
    | cons hhead' htail' =>
      rw [ih htail', Except.ok.inj (hhead.symm.trans hhead')]

theorem Valued.indices (hindex : ∀ entry found, value entry = .ok found → found.index = entry.1)
    (h : Valued value entries values) :
    values.map (·.index) = (entries.filter fun entry => entry.2 ≠ 0).map (·.1) := by
  unfold Valued at h
  generalize entries.filter (fun entry => entry.2 ≠ 0) = kept at h ⊢
  induction h with
  | nil => rfl
  | cons hhead _ ih => rw [List.map_cons, List.map_cons, ih, hindex _ _ hhead]

/-- The loop that lists what it values. -/
theorem foldlM_push_ok_iff {push : List PositionValue → Nat × Int → Except MathError (List PositionValue)}
    (hpush : ∀ listed entry listed', push listed entry = .ok listed' ↔
      entry.2 = 0 ∧ listed = listed' ∨ entry.2 ≠ 0 ∧ ∃ found, value entry = .ok found ∧ listed ++ [found] = listed')
    {listed listed' : List PositionValue} :
    entries.foldlM push listed = .ok listed' ↔ ∃ values, Valued value entries values ∧ listed ++ values = listed' := by
  induction entries generalizing listed with
  | nil => simp [Valued, pure_ok_iff]
  | cons entry entries ih =>
    simp only [List.foldlM_cons, bind_ok_iff, hpush, ih]
    by_cases hzero : entry.2 = 0
    · simp [valued_cons_zero hzero, hzero]
    · simp only [valued_cons hzero, hzero, false_and, false_or, ne_eq, not_false_eq_true, true_and]
      constructor
      · intro ⟨_, ⟨found, hfound, hmid⟩, rest, hrest, hall⟩
        subst hmid
        exact ⟨found :: rest, ⟨found, rest, hfound, hrest, rfl⟩, by rw [← hall, List.append_assoc]; rfl⟩
      · intro ⟨_, ⟨found, rest, hfound, hrest, heq⟩, hall⟩
        subst heq
        exact ⟨_, ⟨found, hfound, rfl⟩, rest, hrest, by rw [← hall, List.append_assoc]; rfl⟩

/-- Each sum on the way fits. -/
def RunningFits : Int → List Int → Prop
  | _, [] => True
  | start, x :: xs => FitsI128 (start + x) ∧ RunningFits (start + x) xs

/-- The loop that sums what it values. -/
theorem foldlM_add_ok_iff {add : PositionData → Nat × Int → Except MathError PositionData}
    {adding : PositionData → PositionValue → PositionData} {base raw : PositionData → Int}
    (hbase : ∀ data found, base (adding data found) = base data + found.effective)
    (hraw : ∀ data found, raw (adding data found) = raw data + found.raw)
    (hadd : ∀ data entry data', add data entry = .ok data' ↔
      entry.2 = 0 ∧ data = data' ∨ entry.2 ≠ 0 ∧ ∃ found, value entry = .ok found ∧
        FitsI128 (base data + found.effective) ∧ FitsI128 (raw data + found.raw) ∧ adding data found = data')
    {data data' : PositionData} :
    entries.foldlM add data = .ok data' ↔ ∃ values, Valued value entries values ∧
      RunningFits (base data) (values.map (·.effective)) ∧ RunningFits (raw data) (values.map (·.raw)) ∧
      values.foldl adding data = data' := by
  induction entries generalizing data with
  | nil => simp [Valued, RunningFits, pure_ok_iff]
  | cons entry entries ih =>
    simp only [List.foldlM_cons, bind_ok_iff, hadd, ih]
    by_cases hzero : entry.2 = 0
    · simp [valued_cons_zero hzero, hzero]
    · simp only [valued_cons hzero, hzero, false_and, false_or, ne_eq, not_false_eq_true, true_and]
      constructor
      · intro ⟨_, ⟨found, hfound, hfit, hfit', hmid⟩, rest, hrest, hfits, hfits', hall⟩
        subst hmid
        rw [hbase] at hfits
        rw [hraw] at hfits'
        exact ⟨found :: rest, ⟨found, rest, hfound, hrest, rfl⟩, ⟨hfit, hfits⟩, ⟨hfit', hfits'⟩, hall⟩
      · intro ⟨_, ⟨found, rest, hfound, hrest, heq⟩, hfits, hfits', hall⟩
        subst heq
        refine ⟨_, ⟨found, hfound, hfits.1, hfits'.1, rfl⟩, rest, hrest, ?_, ?_, hall⟩
        · rw [hbase]
          exact hfits.2
        · rw [hraw]
          exact hfits'.2

end Valued

section Sides

variable {reserves : BTreeMap Nat Reserve} {prices : OraclePrices}

/-- What both loops value a collateral entry at. -/
def collateralValue (reserves : BTreeMap Nat Reserve) (prices : OraclePrices) (entry : Nat × Int) :
    Except MathError PositionValue := do
  let reserve ← reserveAt reserves entry.1
  let price ← prices.price reserve.asset
  let raw ← mulFloor price (← reserve.toAssetFromBToken entry.2) reserve.scalar
  let effective ← mulFloor price (← reserve.toEffectiveAssetFromBToken entry.2) reserve.scalar
  pure { index := entry.1, asset := reserve.asset, raw, effective }

/-- What both loops value a liability entry at. -/
def liabilityValue (reserves : BTreeMap Nat Reserve) (prices : OraclePrices) (entry : Nat × Int) :
    Except MathError PositionValue := do
  let reserve ← reserveAt reserves entry.1
  let price ← prices.price reserve.asset
  let raw ← mulCeil price (← reserve.toAssetFromDToken entry.2) reserve.scalar
  let effective ← mulCeil price (← reserve.toEffectiveAssetFromDToken entry.2) reserve.scalar
  pure { index := entry.1, asset := reserve.asset, raw, effective }

/-- A valuation with one collateral on top. -/
def PositionData.holding (data : PositionData) (found : PositionValue) : PositionData :=
  { data with collateralBase := data.collateralBase + found.effective, collateralRaw := data.collateralRaw + found.raw }

theorem collateralValue_index {entry : Nat × Int} {found : PositionValue}
    (h : collateralValue reserves prices entry = .ok found) : found.index = entry.1 := by
  simp only [collateralValue, bind_ok_iff, pure_ok_iff] at h
  obtain ⟨_, -, _, -, _, -, _, -, _, -, _, -, rfl⟩ := h
  rfl

theorem liabilityValue_index {entry : Nat × Int} {found : PositionValue}
    (h : liabilityValue reserves prices entry = .ok found) : found.index = entry.1 := by
  simp only [liabilityValue, bind_ok_iff, pure_ok_iff] at h
  obtain ⟨_, -, _, -, _, -, _, -, _, -, _, -, rfl⟩ := h
  rfl

theorem mulDiv_fits {x y z v : Int} {rounding : Rounding} (hz : 0 < z) (h : mulDiv x y z rounding = .ok v) : FitsI128 v := by
  rw [mulDiv_eq hz] at h
  obtain ⟨heq, hfits⟩ := narrow_ok_iff.1 h
  exact heq ▸ hfits

theorem collateralValue_fits {entry : Nat × Int} {found : PositionValue}
    (h : collateralValue reserves prices entry = .ok found) : FitsI128 found.effective ∧ FitsI128 found.raw := by
  simp only [collateralValue, bind_ok_iff, pure_ok_iff] at h
  obtain ⟨reserve, -, _, -, _, -, _, hraw, _, -, _, heffective, rfl⟩ := h
  exact ⟨mulDiv_fits reserve.scalar_pos heffective, mulDiv_fits reserve.scalar_pos hraw⟩

theorem liabilityValue_fits {entry : Nat × Int} {found : PositionValue}
    (h : liabilityValue reserves prices entry = .ok found) : FitsI128 found.effective ∧ FitsI128 found.raw := by
  simp only [liabilityValue, bind_ok_iff, pure_ok_iff] at h
  obtain ⟨reserve, -, _, -, _, -, _, hraw, _, -, _, heffective, rfl⟩ := h
  exact ⟨mulDiv_fits reserve.scalar_pos heffective, mulDiv_fits reserve.scalar_pos hraw⟩

theorem pushCollateral_ok_iff (listed : List PositionValue) (entry : Nat × Int) (listed' : List PositionValue) :
    pushCollateral reserves prices listed entry = .ok listed' ↔ entry.2 = 0 ∧ listed = listed' ∨
      entry.2 ≠ 0 ∧ ∃ found, collateralValue reserves prices entry = .ok found ∧ listed ++ [found] = listed' := by
  obtain ⟨index, bTokens⟩ := entry
  by_cases hzero : bTokens = 0
  · simp [pushCollateral, hzero, pure_ok_iff]
  · simp only [pushCollateral, collateralValue, hzero, if_false, bind_ok_iff, pure_ok_iff, false_and, false_or, ne_eq,
      not_false_eq_true, true_and]
    constructor
    · intro ⟨r, hr, price, hp, a, ha, raw, hraw, b, hb, effective, he, hall⟩
      exact ⟨_, ⟨r, hr, price, hp, a, ha, raw, hraw, b, hb, effective, he, rfl⟩, hall⟩
    · intro ⟨_, ⟨r, hr, price, hp, a, ha, raw, hraw, b, hb, effective, he, hfound⟩, hall⟩
      subst hfound
      exact ⟨r, hr, price, hp, a, ha, raw, hraw, b, hb, effective, he, hall⟩

theorem pushLiability_ok_iff (listed : List PositionValue) (entry : Nat × Int) (listed' : List PositionValue) :
    pushLiability reserves prices listed entry = .ok listed' ↔ entry.2 = 0 ∧ listed = listed' ∨
      entry.2 ≠ 0 ∧ ∃ found, liabilityValue reserves prices entry = .ok found ∧ listed ++ [found] = listed' := by
  obtain ⟨index, dTokens⟩ := entry
  by_cases hzero : dTokens = 0
  · simp [pushLiability, hzero, pure_ok_iff]
  · simp only [pushLiability, liabilityValue, hzero, if_false, bind_ok_iff, pure_ok_iff, false_and, false_or, ne_eq,
      not_false_eq_true, true_and]
    constructor
    · intro ⟨r, hr, price, hp, a, ha, raw, hraw, b, hb, effective, he, hall⟩
      exact ⟨_, ⟨r, hr, price, hp, a, ha, raw, hraw, b, hb, effective, he, rfl⟩, hall⟩
    · intro ⟨_, ⟨r, hr, price, hp, a, ha, raw, hraw, b, hb, effective, he, hfound⟩, hall⟩
      subst hfound
      exact ⟨r, hr, price, hp, a, ha, raw, hraw, b, hb, effective, he, hall⟩

theorem addCollateral_ok_iff (data : PositionData) (entry : Nat × Int) (data' : PositionData) :
    addCollateral reserves prices data entry = .ok data' ↔ entry.2 = 0 ∧ data = data' ∨
      entry.2 ≠ 0 ∧ ∃ found, collateralValue reserves prices entry = .ok found ∧
        FitsI128 (data.collateralBase + found.effective) ∧ FitsI128 (data.collateralRaw + found.raw) ∧
        data.holding found = data' := by
  obtain ⟨index, bTokens⟩ := entry
  by_cases hzero : bTokens = 0
  · simp [addCollateral, hzero, pure_ok_iff]
  · simp only [addCollateral, collateralValue, hzero, if_false, bind_ok_iff, pure_ok_iff, narrow_ok_iff, false_and, false_or,
      ne_eq, not_false_eq_true, true_and]
    constructor
    · intro h
      obtain ⟨r, hr, price, hp, b, hb, a, ha, effective, he, _, ⟨hbase, hfit⟩, raw, hraw, _, ⟨hbase', hfit'⟩, hall⟩ := h
      subst hbase hbase'
      exact ⟨_, ⟨r, hr, price, hp, a, ha, raw, hraw, b, hb, effective, he, rfl⟩, hfit, hfit', hall⟩
    · intro h
      obtain ⟨_, ⟨r, hr, price, hp, a, ha, raw, hraw, b, hb, effective, he, hfound⟩, hfit, hfit', hall⟩ := h
      subst hfound
      exact ⟨r, hr, price, hp, b, hb, a, ha, effective, he, _, ⟨rfl, hfit⟩, raw, hraw, _, ⟨rfl, hfit'⟩, hall⟩

theorem liabilityValue_ok_iff (entry : Nat × Int) (found : PositionValue) :
    liabilityValue reserves prices entry = .ok found ↔ ∃ reserve, reserveAt reserves entry.1 = .ok reserve ∧
      liabilityWorth reserves prices entry.1 entry.2 = .ok (found.effective, found.raw) ∧ found.index = entry.1 ∧
      found.asset = reserve.asset := by
  simp only [liabilityValue, liabilityWorth, bind_ok_iff, pure_ok_iff, Prod.mk.injEq]
  constructor
  · intro h
    obtain ⟨r, hr, price, hp, a, ha, raw, hraw, b, hb, effective, he, hfound⟩ := h
    subst hfound
    exact ⟨r, hr, ⟨r, hr, price, hp, b, hb, a, ha, effective, he, raw, hraw, rfl, rfl⟩, rfl, rfl⟩
  · intro h
    obtain ⟨r, hr, ⟨r', hr', price, hp, b, hb, a, ha, effective, he, raw, hraw, heq, heq'⟩, hindex, hasset⟩ := h
    obtain rfl : r = r' := Except.ok.inj (hr.symm.trans hr')
    obtain ⟨index, asset, raw', effective'⟩ := found
    subst heq heq' hindex hasset
    exact ⟨r, hr, price, hp, a, ha, raw, hraw, b, hb, effective, he, rfl⟩

theorem addLiability_valued_iff (data : PositionData) (entry : Nat × Int) (data' : PositionData) :
    addLiability reserves prices data entry = .ok data' ↔ entry.2 = 0 ∧ data = data' ∨
      entry.2 ≠ 0 ∧ ∃ found, liabilityValue reserves prices entry = .ok found ∧
        FitsI128 (data.liabilityBase + found.effective) ∧ FitsI128 (data.liabilityRaw + found.raw) ∧
        data.owing (found.effective, found.raw) = data' := by
  obtain ⟨index, dTokens⟩ := entry
  rw [addLiability_ok_iff]
  simp only [liabilityValue_ok_iff]
  refine or_congr_right (and_congr_right fun _ => ⟨?_, ?_⟩)
  · intro ⟨worth, hworth, hfit, hfit', hall⟩
    obtain ⟨reserve, hr, -⟩ := bind_ok_iff.1 hworth
    exact ⟨⟨index, reserve.asset, worth.2, worth.1⟩, ⟨reserve, hr, hworth, rfl, rfl⟩, hfit, hfit', hall⟩
  · intro ⟨found, ⟨_, _, hworth, _⟩, hfit, hfit', hall⟩
    exact ⟨_, hworth, hfit, hfit', hall⟩

end Sides

section Order

/-- Largest first, a tie by the lower index, and never two of one index. -/
def InOrder (values : List PositionValue) : Prop :=
  values.Pairwise fun left right =>
    right.effective < left.effective ∨ right.effective = left.effective ∧ left.index < right.index

instance : Std.Total LargestFirst where
  total left right := by
    unfold LargestFirst
    omega

instance : IsTrans PositionValue LargestFirst where
  trans left mid right := by
    unfold LargestFirst
    omega

/-- Sorting values of distinct indices leaves them in order. -/
theorem insertionSort_inOrder {values : List PositionValue} (h : (values.map (·.index)).Nodup) :
    InOrder (values.insertionSort LargestFirst) := by
  have hperm := (List.perm_insertionSort LargestFirst values).map (·.index)
  have hnodup : (values.insertionSort LargestFirst).Pairwise fun left right => left.index ≠ right.index :=
    List.pairwise_map.1 (hperm.nodup_iff.2 h)
  refine ((List.pairwise_insertionSort LargestFirst values).and hnodup).imp ?_
  intro left right ⟨hfirst, hne⟩
  rcases hfirst with hmore | ⟨htie, hle⟩
  · exact .inl hmore
  · exact .inr ⟨htie, by omega⟩

/-- The sums of a list's values up to each index, as a loop over the indices in
order meets them. -/
def SumsFit (values : List PositionValue) : Prop :=
  ∀ k, FitsI128 ((values.filter (·.index ≤ k)).map (·.effective)).sum ∧
    FitsI128 ((values.filter (·.index ≤ k)).map (·.raw)).sum

theorem SumsFit.congr_perm {values values' : List PositionValue} (h : values.Perm values') :
    SumsFit values ↔ SumsFit values' := by
  refine forall_congr' fun k => ?_
  have hkept := h.filter (fun value => value.index ≤ k)
  rw [(hkept.map (·.effective)).sum_eq, (hkept.map (·.raw)).sum_eq]

theorem runningFits_iff {f : PositionValue → Int} {values : List PositionValue} {start : Int} (hstart : FitsI128 start)
    (hsorted : (values.map (·.index)).Pairwise (· < ·)) :
    RunningFits start (values.map f) ↔ ∀ k, FitsI128 (start + ((values.filter (·.index ≤ k)).map f).sum) := by
  induction values generalizing start with
  | nil => simp [RunningFits, hstart]
  | cons value rest ih =>
    rw [List.map_cons, List.pairwise_cons] at hsorted
    obtain ⟨hlast, hrest⟩ := hsorted
    have hnone : ∀ k ≤ value.index, rest.filter (·.index ≤ k) = [] := by
      intro k hk
      rw [List.filter_eq_nil_iff]
      intro later hlater
      have hlt := hlast later.index (List.mem_map_of_mem hlater)
      simp only [decide_eq_true_eq]
      omega
    have htaken : ∀ k, value.index ≤ k →
        start + (((value :: rest).filter (·.index ≤ k)).map f).sum =
          start + f value + ((rest.filter (·.index ≤ k)).map f).sum := by
      intro k hk
      rw [List.filter_cons_of_pos (by simpa using hk), List.map_cons, List.sum_cons, Int.add_assoc]
    simp only [List.map_cons, RunningFits]
    constructor
    · intro ⟨hhead, htail⟩ k
      by_cases hk : value.index ≤ k
      · rw [htaken k hk]
        exact (ih hhead hrest).1 htail k
      · rw [List.filter_cons_of_neg (by simpa using hk), hnone k (by omega)]
        simpa using hstart
    · intro hall
      have hhead : FitsI128 (start + f value) := by
        have h := hall value.index
        rw [htaken _ le_rfl, hnone _ le_rfl] at h
        simpa using h
      refine ⟨hhead, (ih hhead hrest).2 fun k => ?_⟩
      by_cases hk : value.index ≤ k
      · rw [← htaken k hk]
        exact hall k
      · rw [hnone k (by omega)]
        simpa using hhead

theorem sumsFit_iff {values : List PositionValue} (hsorted : (values.map (·.index)).Pairwise (· < ·)) :
    SumsFit values ↔ RunningFits 0 (values.map (·.effective)) ∧ RunningFits 0 (values.map (·.raw)) := by
  have hzero : FitsI128 0 := by unfold FitsI128; decide
  rw [runningFits_iff hzero hsorted, runningFits_iff hzero hsorted, ← forall_and]
  simp only [Int.zero_add]
  rfl

/-- Every non-zero position once, in order. -/
structure ListsEach (held : BTreeMap Nat Int) (values : List PositionValue) : Prop where
  once : (values.map (·.index)).Nodup
  each : ∀ index : Nat, (∃ value ∈ values, value.index = index) ↔ held.getD index 0 ≠ 0
  order : InOrder values

variable {value : Nat × Int → Except MathError PositionValue} {held : BTreeMap Nat Int} {values : List PositionValue}

/-- A map's entries come by ascending index. -/
theorem Valued.ascending (hindex : ∀ entry found, value entry = .ok found → found.index = entry.1)
    (h : Valued value held.toList values) : (values.map (·.index)).Pairwise (· < ·) := by
  rw [h.indices hindex, List.pairwise_map]
  refine List.Pairwise.filter _ (Std.ExtTreeMap.ordered_keys_toList.imp ?_)
  intro left right hlt
  exact Nat.compare_eq_lt.1 hlt

theorem Valued.listsEach (hindex : ∀ entry found, value entry = .ok found → found.index = entry.1)
    (h : Valued value held.toList values) : ListsEach held (values.insertionSort LargestFirst) := by
  have hnodup : (values.map (·.index)).Nodup := (h.ascending hindex).imp fun hlt => Nat.ne_of_lt hlt
  have hperm := (List.perm_insertionSort LargestFirst values).map (·.index)
  refine ⟨hperm.nodup_iff.2 hnodup, fun index => ?_, insertionSort_inOrder hnodup⟩
  rw [← List.mem_map, hperm.mem_iff, h.indices hindex, Std.ExtTreeMap.getD_eq_getD_getElem?]
  simp only [List.mem_map, List.mem_filter, decide_eq_true_eq]
  constructor
  · intro ⟨⟨_, amount⟩, ⟨hmem, hne⟩, heq⟩
    subst heq
    rw [Std.ExtTreeMap.mem_toList_iff_getElem?_eq_some.1 hmem]
    exact hne
  · intro hne
    cases hget : held[index]? with
    | none => rw [hget] at hne; exact absurd rfl hne
    | some amount =>
      rw [hget] at hne
      exact ⟨(index, amount), ⟨Std.ExtTreeMap.mem_toList_iff_getElem?_eq_some.2 hget, hne⟩, rfl⟩

end Order

section Agreement

variable {reserves : BTreeMap Nat Reserve} {prices : OraclePrices} {positions : Positions}

theorem foldlM_addCollateral_ok_iff {entries : List (Nat × Int)} {data data' : PositionData} :
    entries.foldlM (addCollateral reserves prices) data = .ok data' ↔ ∃ values,
      Valued (collateralValue reserves prices) entries values ∧
      RunningFits data.collateralBase (values.map (·.effective)) ∧ RunningFits data.collateralRaw (values.map (·.raw)) ∧
      values.foldl PositionData.holding data = data' :=
  foldlM_add_ok_iff (fun _ _ => rfl) (fun _ _ => rfl) addCollateral_ok_iff

theorem foldlM_addLiability_ok_iff {entries : List (Nat × Int)} {data data' : PositionData} :
    entries.foldlM (addLiability reserves prices) data = .ok data' ↔ ∃ values,
      Valued (liabilityValue reserves prices) entries values ∧
      RunningFits data.liabilityBase (values.map (·.effective)) ∧ RunningFits data.liabilityRaw (values.map (·.raw)) ∧
      values.foldl (fun data found => data.owing (found.effective, found.raw)) data = data' :=
  foldlM_add_ok_iff (fun _ _ => rfl) (fun _ _ => rfl) addLiability_valued_iff

theorem foldl_holding (values : List PositionValue) (data : PositionData) :
    values.foldl PositionData.holding data =
      { data with
        collateralBase := data.collateralBase + (values.map (·.effective)).sum
        collateralRaw := data.collateralRaw + (values.map (·.raw)).sum } := by
  induction values generalizing data with
  | nil => simp
  | cons value rest ih =>
    rw [List.foldl_cons, ih]
    simp [PositionData.holding, Int.add_assoc]

theorem foldl_owing (values : List PositionValue) (data : PositionData) :
    values.foldl (fun data found => data.owing (found.effective, found.raw)) data =
      { data with
        liabilityBase := data.liabilityBase + (values.map (·.effective)).sum
        liabilityRaw := data.liabilityRaw + (values.map (·.raw)).sum } := by
  induction values generalizing data with
  | nil => simp
  | cons value rest ih =>
    rw [List.foldl_cons, ih]
    simp [PositionData.owing, Int.add_assoc]

/-- The lists are the entries' values, sorted. -/
theorem positionValues_ok_iff {collateral liabilities : List PositionValue} :
    positionValues reserves prices positions = .ok (collateral, liabilities) ↔ ∃ held owed,
      Valued (collateralValue reserves prices) positions.collateral.toList held ∧
      Valued (liabilityValue reserves prices) positions.liabilities.toList owed ∧
      held.insertionSort LargestFirst = collateral ∧ owed.insertionSort LargestFirst = liabilities := by
  simp only [positionValues, bind_ok_iff, pure_ok_iff, foldlM_push_ok_iff pushCollateral_ok_iff,
    foldlM_push_ok_iff pushLiability_ok_iff, List.nil_append, Prod.mk.injEq]
  constructor
  · intro ⟨held, ⟨_, hheld, heq⟩, owed, ⟨_, howed, heq'⟩, hsorted, hsorted'⟩
    subst heq heq'
    exact ⟨_, _, hheld, howed, hsorted, hsorted'⟩
  · intro ⟨held, owed, hheld, howed, hsorted, hsorted'⟩
    exact ⟨held, ⟨held, hheld, rfl⟩, owed, ⟨owed, howed, rfl⟩, hsorted, hsorted'⟩

/-- The valuation is the sums of the same values, where each sum on the way
fits. -/
theorem calculatePositionData_ok_iff {data : PositionData} :
    calculatePositionData reserves prices positions = .ok data ↔ ∃ held owed,
      Valued (collateralValue reserves prices) positions.collateral.toList held ∧
      Valued (liabilityValue reserves prices) positions.liabilities.toList owed ∧ SumsFit held ∧ SumsFit owed ∧
      data = { collateralBase := (held.map (·.effective)).sum, collateralRaw := (held.map (·.raw)).sum,
               liabilityBase := (owed.map (·.effective)).sum, liabilityRaw := (owed.map (·.raw)).sum,
               scalar := prices.scalar } := by
  simp only [calculatePositionData, bind_ok_iff, foldlM_addCollateral_ok_iff, foldlM_addLiability_ok_iff, foldl_holding,
    foldl_owing, Int.zero_add]
  constructor
  · intro h
    obtain ⟨_, ⟨held, hheld, hfits, hfits', hmid⟩, owed, howed, hfits₂, hfits₂', hall⟩ := h
    subst hmid hall
    exact ⟨held, owed, hheld, howed, (sumsFit_iff (hheld.ascending fun _ _ => collateralValue_index)).2 ⟨hfits, hfits'⟩,
      (sumsFit_iff (howed.ascending fun _ _ => liabilityValue_index)).2 ⟨hfits₂, hfits₂'⟩, by simp⟩
  · intro h
    obtain ⟨held, owed, hheld, howed, hfits, hfits₂, hdata⟩ := h
    obtain ⟨hfits, hfits'⟩ := (sumsFit_iff (hheld.ascending fun _ _ => collateralValue_index)).1 hfits
    obtain ⟨hfits₂, hfits₂'⟩ := (sumsFit_iff (howed.ascending fun _ _ => liabilityValue_index)).1 hfits₂
    exact ⟨_, ⟨held, hheld, hfits, hfits', rfl⟩, owed, howed, hfits₂, hfits₂', by simp [hdata]⟩

/-- What the valuation starts from. -/
def PositionData.nothing (prices : OraclePrices) : PositionData :=
  { collateralBase := 0, collateralRaw := 0, liabilityBase := 0, liabilityRaw := 0, scalar := prices.scalar }

/-- One pass over nothing is one entry's value: no sum is there to overflow. -/
theorem addCollateral_nothing {entry : Nat × Int} :
    (∃ data, addCollateral reserves prices (.nothing prices) entry = .ok data) ↔
      (entry.2 ≠ 0 → ∃ found, collateralValue reserves prices entry = .ok found) := by
  simp only [addCollateral_ok_iff]
  by_cases hzero : entry.2 = 0
  · simp [hzero]
  simp only [hzero, false_and, false_or, ne_eq, not_false_eq_true, true_and, forall_const]
  constructor
  · intro ⟨_, found, hfound, _⟩
    exact ⟨found, hfound⟩
  · intro ⟨found, hfound⟩
    have hfits := collateralValue_fits hfound
    refine ⟨_, found, hfound, ?_, ?_, rfl⟩
    · simpa [PositionData.nothing] using hfits.1
    · simpa [PositionData.nothing] using hfits.2

theorem addLiability_nothing {entry : Nat × Int} :
    (∃ data, addLiability reserves prices (.nothing prices) entry = .ok data) ↔
      (entry.2 ≠ 0 → ∃ found, liabilityValue reserves prices entry = .ok found) := by
  simp only [addLiability_valued_iff]
  by_cases hzero : entry.2 = 0
  · simp [hzero]
  simp only [hzero, false_and, false_or, ne_eq, not_false_eq_true, true_and, forall_const]
  constructor
  · intro ⟨_, found, hfound, _⟩
    exact ⟨found, hfound⟩
  · intro ⟨found, hfound⟩
    have hfits := liabilityValue_fits hfound
    refine ⟨_, found, hfound, ?_, ?_, rfl⟩
    · simpa [PositionData.nothing] using hfits.1
    · simpa [PositionData.nothing] using hfits.2

/-- Where every entry is valued, the valuation can only overflow. -/
theorem calculatePositionData_okOr_of_valued {held owed : List PositionValue}
    (hheld : Valued (collateralValue reserves prices) positions.collateral.toList held)
    (howed : Valued (liabilityValue reserves prices) positions.liabilities.toList owed) :
    OkOr .overflow (calculatePositionData reserves prices positions) := by
  unfold calculatePositionData
  refine OkOr.bind (OkOr.foldlM fun entry he acc => addCollateral_okOr fun hne => ?_) fun data _ =>
    OkOr.foldlM fun entry he acc => addLiability_okOr fun hne => ?_
  · obtain ⟨found, hfound⟩ := exists_valued.1 ⟨held, hheld⟩ entry he hne
    obtain ⟨reserve, hr, hfound⟩ := bind_ok_iff.1 hfound
    obtain ⟨price, hp, -⟩ := bind_ok_iff.1 hfound
    exact ⟨reserve, price, reserveAt_ok_iff.1 hr, hp⟩
  · obtain ⟨found, hfound⟩ := exists_valued.1 ⟨owed, howed⟩ entry he hne
    obtain ⟨_, -, hworth, -⟩ := (liabilityValue_ok_iff entry found).1 hfound
    exact ⟨_, hworth⟩

/-- **The two valuations agree.** The lists are answered exactly when one pass
of each of the valuation's loops over each entry alone is; the valuation then
answers too, unless one of its sums on the way overflows; and what it answers
with is the sums of the lists, which hold each non-zero position once, largest
first. -/
theorem positionValues_agree (reserves : BTreeMap Nat Reserve) (prices : OraclePrices) (positions : Positions) :
    ((∃ values, positionValues reserves prices positions = .ok values) ↔
      (∀ entry ∈ positions.collateral.toList,
        ∃ data, addCollateral reserves prices (.nothing prices) entry = .ok data) ∧
      ∀ entry ∈ positions.liabilities.toList,
        ∃ data, addLiability reserves prices (.nothing prices) entry = .ok data) ∧
    (∀ data, calculatePositionData reserves prices positions = .ok data →
      ∃ values, positionValues reserves prices positions = .ok values) ∧
    ∀ collateral liabilities, positionValues reserves prices positions = .ok (collateral, liabilities) →
      ListsEach positions.collateral collateral ∧ ListsEach positions.liabilities liabilities ∧
      OkOr .overflow (calculatePositionData reserves prices positions) ∧
      ((∃ data, calculatePositionData reserves prices positions = .ok data) ↔ SumsFit collateral ∧ SumsFit liabilities) ∧
      ∀ data, calculatePositionData reserves prices positions = .ok data →
        data.collateralBase = (collateral.map (·.effective)).sum ∧ data.collateralRaw = (collateral.map (·.raw)).sum ∧
        data.liabilityBase = (liabilities.map (·.effective)).sum ∧ data.liabilityRaw = (liabilities.map (·.raw)).sum := by
  refine ⟨?_, ?_, ?_⟩
  · simp only [addCollateral_nothing, addLiability_nothing, ← exists_valued]
    constructor
    · intro ⟨(collateral, liabilities), hvalues⟩
      obtain ⟨held, owed, hheld, howed, -⟩ := positionValues_ok_iff.1 hvalues
      exact ⟨⟨held, hheld⟩, owed, howed⟩
    · intro ⟨⟨held, hheld⟩, owed, howed⟩
      exact ⟨_, positionValues_ok_iff.2 ⟨held, owed, hheld, howed, rfl, rfl⟩⟩
  · intro data hdata
    obtain ⟨held, owed, hheld, howed, -⟩ := calculatePositionData_ok_iff.1 hdata
    exact ⟨_, positionValues_ok_iff.2 ⟨held, owed, hheld, howed, rfl, rfl⟩⟩
  · intro collateral liabilities hvalues
    obtain ⟨held, owed, hheld, howed, hsorted, hsorted'⟩ := positionValues_ok_iff.1 hvalues
    subst hsorted hsorted'
    have hperm := List.perm_insertionSort LargestFirst held
    have hperm' := List.perm_insertionSort LargestFirst owed
    refine ⟨hheld.listsEach fun _ _ => collateralValue_index, howed.listsEach fun _ _ => liabilityValue_index,
      calculatePositionData_okOr_of_valued hheld howed, ?_, fun data hdata => ?_⟩
    · rw [SumsFit.congr_perm hperm, SumsFit.congr_perm hperm']
      constructor
      · intro ⟨data, hdata⟩
        obtain ⟨held', owed', hheld', howed', hfits, hfits', -⟩ := calculatePositionData_ok_iff.1 hdata
        rw [hheld.unique hheld', howed.unique howed']
        exact ⟨hfits, hfits'⟩
      · intro ⟨hfits, hfits'⟩
        exact ⟨_, calculatePositionData_ok_iff.2 ⟨held, owed, hheld, howed, hfits, hfits', rfl⟩⟩
    · obtain ⟨held', owed', hheld', howed', -, -, hdata⟩ := calculatePositionData_ok_iff.1 hdata
      rw [← hheld.unique hheld', ← howed.unique howed'] at hdata
      subst hdata
      exact ⟨(hperm.map _).sum_eq.symm, (hperm.map _).sum_eq.symm, (hperm'.map _).sum_eq.symm, (hperm'.map _).sum_eq.symm⟩

end Agreement

/-! ## Plans -/

section Plans

variable {collateral liabilities : List PositionValue} {percent maxPositions : Nat}

/-- Trimming keeps one of each at least, and comes down to the cap where it
allows for two. -/
theorem trim_spec {cap lotCount bidCount : Nat} (hcap : 2 ≤ cap) (hlot : 1 ≤ lotCount) (hbid : 1 ≤ bidCount) :
    (1 ≤ (trim cap lotCount bidCount).1 ∧ (trim cap lotCount bidCount).1 ≤ lotCount) ∧
      (1 ≤ (trim cap lotCount bidCount).2 ∧ (trim cap lotCount bidCount).2 ≤ bidCount) ∧
      (trim cap lotCount bidCount).1 + (trim cap lotCount bidCount).2 ≤ cap := by
  fun_induction trim cap lotCount bidCount with
  | case1 lotCount bidCount hover hmore ih =>
    have h := ih (by omega) hbid
    omega
  | case2 lotCount bidCount hover hless hbids ih =>
    have h := ih hlot (by omega)
    omega
  | case3 lotCount bidCount hover hless hnone => dsimp only; omega
  | case4 lotCount bidCount hfits => dsimp only; omega

theorem sliceTo_of_le {α : Type} {values : List α} {count : Nat} (h : count ≤ values.length) :
    sliceTo values count = .ok (values.take count) := by
  rw [sliceTo, if_pos h]

/-- A plan's sides: non-empty prefixes, no more of them than the cap. -/
structure WellFormedPlan (collateral liabilities : List PositionValue) (maxPositions : Nat) (plan : LiquidationPlan) :
    Prop where
  lot : ∃ n, 1 ≤ n ∧ n ≤ collateral.length ∧ plan.lot = (collateral.take n).map (·.asset)
  bid : ∃ n, 1 ≤ n ∧ n ≤ liabilities.length ∧ plan.bid = (liabilities.take n).map (·.asset)
  capped : plan.lot.length + plan.bid.length ≤ max maxPositions 2

/-- A bounded plan is well formed, and no slice of it is out of range. -/
theorem boundedPlan_spec (hlot : 1 ≤ collateral.length) (hbid : 1 ≤ liabilities.length) :
    ∃ plan, boundedPlan collateral liabilities percent maxPositions = .ok plan ∧
      WellFormedPlan collateral liabilities maxPositions plan := by
  have hcap : 2 ≤ max maxPositions 2 := le_max_right _ _
  obtain ⟨⟨hlot1, hlotLe⟩, ⟨hbid1, hbidLe⟩, hcapped⟩ := trim_spec hcap hlot hbid
  have hpercent : 1 ≤ min (max percent 1) 100 ∧ min (max percent 1) 100 ≤ 100 := by omega
  simp only [boundedPlan, sliceTo_of_le hlotLe, sliceTo_of_le hbidLe, FillPercent.tryFrom, dif_pos hpercent, bind,
    Except.bind]
  refine ⟨_, rfl, ⟨_, hlot1, hlotLe, rfl⟩, ⟨_, hbid1, hbidLe, rfl⟩, ?_⟩
  simp only [List.length_map, List.length_take]
  omega

/-- A plan of a prefix is a plan of the whole. -/
theorem WellFormedPlan.of_take {lotCount bidCount : Nat} {plan : LiquidationPlan}
    (h : WellFormedPlan (collateral.take lotCount) (liabilities.take bidCount) maxPositions plan) :
    WellFormedPlan collateral liabilities maxPositions plan := by
  obtain ⟨⟨n, hn, hle, hlot⟩, ⟨m, hm, hle', hbid⟩, hcapped⟩ := h
  rw [List.length_take] at hle hle'
  refine ⟨⟨n, hn, by omega, ?_⟩, ⟨m, hm, by omega, ?_⟩, hcapped⟩
  · rw [hlot, List.take_take, min_eq_left (by omega)]
  · rw [hbid, List.take_take, min_eq_left (by omega)]

theorem WellFormedPlan.lot_isPrefix {plan : LiquidationPlan} (h : WellFormedPlan collateral liabilities maxPositions plan) :
    plan.lot ≠ [] ∧ plan.lot <+: collateral.map (·.asset) := by
  obtain ⟨n, hn, hle, hlot⟩ := h.lot
  refine ⟨?_, ?_⟩
  · refine List.ne_nil_of_length_pos ?_
    rw [hlot, List.length_map, List.length_take]
    omega
  · rw [hlot, List.map_take]
    exact List.take_prefix n _

theorem WellFormedPlan.bid_isPrefix {plan : LiquidationPlan} (h : WellFormedPlan collateral liabilities maxPositions plan) :
    plan.bid ≠ [] ∧ plan.bid <+: liabilities.map (·.asset) := by
  obtain ⟨n, hn, hle, hbid⟩ := h.bid
  refine ⟨?_, ?_⟩
  · refine List.ne_nil_of_length_pos ?_
    rw [hbid, List.length_map, List.length_take]
    omega
  · rw [hbid, List.map_take]
    exact List.take_prefix n _

/-- The loop answers with a well-formed plan, or with its arithmetic's error. -/
theorem selectLoop_spec {excess targetHealth : Int} {lotCount bidCount : Nat} (hlot : 1 ≤ lotCount)
    (hlot' : lotCount ≤ collateral.length) (hbid : 1 ≤ bidCount) (hbid' : bidCount ≤ liabilities.length) :
    (∃ plan, selectLoop excess collateral liabilities targetHealth maxPositions lotCount bidCount = .ok plan ∧
      WellFormedPlan collateral liabilities maxPositions plan) ∨
    ∃ error, selectLoop excess collateral liabilities targetHealth maxPositions lotCount bidCount =
      .error (.math error) := by
  have heverything : ∀ percent, ∃ plan, boundedPlan collateral liabilities percent maxPositions = .ok plan ∧
      WellFormedPlan collateral liabilities maxPositions plan :=
    fun percent => boundedPlan_spec (by omega) (by omega)
  induction hmeasure : (collateral.length - lotCount) + (liabilities.length - bidCount) using Nat.strongRecOn
    generalizing lotCount bidCount with
  | ind measure ih =>
    subst hmeasure
    rw [selectLoop, sliceTo_of_le hlot', sliceTo_of_le hbid']
    simp only [bind, Except.bind]
    cases selectionPercent excess (collateral.take lotCount) (liabilities.take bidCount) targetHealth with
    | error error => exact .inr ⟨error, rfl⟩
    | ok percent =>
      simp only [Except.mapError]
      split
      · split
        · exact ih _ (by omega) hlot hlot' (by omega) (by omega) rfl
        split
        · exact ih _ (by omega) (by omega) (by omega) hbid hbid' rfl
        · exact .inl (heverything 100)
      split
      · split
        · exact ih _ (by omega) (by omega) (by omega) hbid hbid' rfl
        · exact .inl (heverything 100)
      · obtain ⟨plan, hplan, hformed⟩ : ∃ plan, boundedPlan (collateral.take lotCount) (liabilities.take bidCount) percent
            maxPositions = .ok plan ∧
              WellFormedPlan (collateral.take lotCount) (liabilities.take bidCount) maxPositions plan :=
          boundedPlan_spec (by rw [List.length_take]; omega) (by rw [List.length_take]; omega)
        exact .inl ⟨plan, hplan, hformed.of_take⟩

/-- How a plan ends: with nothing to close, with a well-formed plan, or with its
arithmetic's error. -/
theorem planLiquidation_cases {data : PositionData} {targetHealth : Int} :
    (planLiquidation data collateral liabilities targetHealth maxPositions = .ok none ∧
      (collateral = [] ∨ liabilities = [] ∨ data.liabilityBase * targetHealth / SCALAR_7 ≤ data.collateralBase)) ∨
    (∃ plan, planLiquidation data collateral liabilities targetHealth maxPositions = .ok (some plan) ∧
      WellFormedPlan collateral liabilities maxPositions plan ∧
      data.collateralBase < data.liabilityBase * targetHealth / SCALAR_7) ∨
    ∃ error, planLiquidation data collateral liabilities targetHealth maxPositions = .error (.math error) := by
  unfold planLiquidation
  split
  · next hempty =>
    simp only [Bool.or_eq_true, List.isEmpty_iff] at hempty
    exact .inl ⟨rfl, hempty.symm.imp_right .inl⟩
  next hboth =>
  simp only [Bool.or_eq_true, List.isEmpty_iff, not_or] at hboth
  rw [mulFloor_eq SCALAR_7_pos]
  cases hlimit : narrow (data.liabilityBase * targetHealth / SCALAR_7) with
  | error error => exact .inr (.inr ⟨error, rfl⟩)
  | ok limit =>
    have hlimit' : limit = data.liabilityBase * targetHealth / SCALAR_7 := narrow_ok hlimit
    simp only [Except.mapError, bind, Except.bind]
    cases hexcess : narrow (limit - data.collateralBase) with
    | error error => exact .inr (.inr ⟨error, rfl⟩)
    | ok excess =>
      have hexcess' : excess = limit - data.collateralBase := narrow_ok hexcess
      dsimp only
      split
      · exact .inl ⟨rfl, .inr (.inr (by omega))⟩
      have hloop : (∃ plan, selectLoop excess collateral liabilities targetHealth maxPositions 1 1 = .ok plan ∧
            WellFormedPlan collateral liabilities maxPositions plan) ∨
          ∃ error, selectLoop excess collateral liabilities targetHealth maxPositions 1 1 = .error (.math error) :=
        selectLoop_spec le_rfl (List.length_pos_of_ne_nil hboth.2) le_rfl (List.length_pos_of_ne_nil hboth.1)
      rcases hloop with ⟨plan, hplan, hformed⟩ | ⟨error, herror⟩
      · rw [hplan]
        exact .inr (.inl ⟨plan, rfl, hformed, by omega⟩)
      · rw [herror]
        exact .inr (.inr ⟨error, rfl⟩)

/-- No slice is out of range. -/
theorem planLiquidation_ne_outOfRange {data : PositionData} {targetHealth : Int}
    (h : planLiquidation data collateral liabilities targetHealth maxPositions = .error .outOfRange) : False := by
  have hcases := @planLiquidation_cases collateral liabilities maxPositions data targetHealth
  rw [h] at hcases
  simp at hcases

end Plans

/-- **A plan is well formed and always reached.** No slice is out of range;
where there is an answer it is `none` exactly when a side is empty or nothing is
to be closed, and a plan's lot and bid are non-empty prefixes of the two lists
that keep to the cap, with a percent from 1 to 100. -/
theorem planLiquidation_wellFormed (data : PositionData) (collateral liabilities : List PositionValue) (targetHealth : Int)
    (maxPositions : Nat) :
    planLiquidation data collateral liabilities targetHealth maxPositions ≠ .error .outOfRange ∧
    ∀ answer, planLiquidation data collateral liabilities targetHealth maxPositions = .ok answer →
      (answer = none ↔ collateral = [] ∨ liabilities = [] ∨
        data.liabilityBase * targetHealth / SCALAR_7 ≤ data.collateralBase) ∧
      ∀ plan, answer = some plan →
        (plan.lot ≠ [] ∧ plan.lot <+: collateral.map (·.asset)) ∧ (plan.bid ≠ [] ∧ plan.bid <+: liabilities.map (·.asset)) ∧
        plan.lot.length + plan.bid.length ≤ max maxPositions 2 ∧ 1 ≤ plan.percent.get ∧ plan.percent.get ≤ 100 := by
  unfold planLiquidation
  by_cases hempty : (liabilities.isEmpty || collateral.isEmpty) = true
  · rw [if_pos hempty]
    refine ⟨fun h => (nomatch h), fun answer hanswer => ?_⟩
    cases hanswer
    simp only [Bool.or_eq_true, List.isEmpty_iff] at hempty
    have hnone : collateral = [] ∨ liabilities = [] ∨
        data.liabilityBase * targetHealth / SCALAR_7 ≤ data.collateralBase := hempty.symm.imp_right .inl
    exact ⟨⟨fun _ => hnone, fun _ => rfl⟩, fun plan hplan => nomatch hplan⟩
  rw [if_neg hempty]
  simp only [Bool.or_eq_true, List.isEmpty_iff, not_or] at hempty
  obtain ⟨hliabilities, hcollateral⟩ := hempty
  have hlot : 1 ≤ collateral.length := List.length_pos_of_ne_nil hcollateral
  have hbid : 1 ≤ liabilities.length := List.length_pos_of_ne_nil hliabilities
  rw [mulFloor_eq SCALAR_7_pos]
  cases hlimit : narrow (data.liabilityBase * targetHealth / SCALAR_7) with
  | error error => exact ⟨fun h => (nomatch h), fun answer hanswer => nomatch hanswer⟩
  | ok limit =>
    have hlimit' : limit = data.liabilityBase * targetHealth / SCALAR_7 := narrow_ok hlimit
    simp only [Except.mapError, bind, Except.bind]
    cases hexcess : narrow (limit - data.collateralBase) with
    | error error => exact ⟨fun h => (nomatch h), fun answer hanswer => nomatch hanswer⟩
    | ok excess =>
      have hexcess' : excess = limit - data.collateralBase := narrow_ok hexcess
      dsimp only
      split
      · next hclosed =>
        refine ⟨fun h => (nomatch h), fun answer hanswer => ?_⟩
        cases hanswer
        exact ⟨⟨fun _ => .inr (.inr (by omega)), fun _ => rfl⟩, fun plan hplan => nomatch hplan⟩
      · next hopen =>
        have hsome : ¬(collateral = [] ∨ liabilities = [] ∨
            data.liabilityBase * targetHealth / SCALAR_7 ≤ data.collateralBase) := by
          simp only [hcollateral, hliabilities, false_or]
          omega
        have hloop : (∃ plan, selectLoop excess collateral liabilities targetHealth maxPositions 1 1 = .ok plan ∧
              WellFormedPlan collateral liabilities maxPositions plan) ∨
            ∃ error, selectLoop excess collateral liabilities targetHealth maxPositions 1 1 = .error (.math error) :=
          selectLoop_spec le_rfl hlot le_rfl hbid
        rcases hloop with ⟨plan, hplan, hformed⟩ | ⟨error, herror⟩
        · rw [hplan]
          refine ⟨fun h => (nomatch h), fun answer hanswer => ?_⟩
          cases hanswer
          refine ⟨⟨fun h => (nomatch h), fun h => (hsome h).elim⟩, fun plan' hplan' => ?_⟩
          cases hplan'
          exact ⟨hformed.lot_isPrefix, hformed.bid_isPrefix, hformed.capped, plan.percent.one_le, plan.percent.le_hundred⟩
        · rw [herror]
          exact ⟨fun h => (nomatch h), fun answer hanswer => nomatch hanswer⟩

end BlendLiquidator
