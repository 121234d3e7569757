/-
What the tracker writes of a borrower, and what the auctioneer decides of it,
from the same snapshot.

The tracker values an account for its row and the auctioneer for its decision,
each by its own code and under its own threshold: the scan's for what is looked
at again, the liquidation's for what is acted on. An accepted configuration has
the second below the first, so that nobody is decided to be liquidated whom the
full scan would not flag.
-/
import BlendLiquidator.DecideFacts
import BlendLiquidator.ScanFacts
import BlendLiquidator.Stalls
import BlendLiquidator.StartupFacts

namespace BlendLiquidator

open IntDiv Results

section Weight

variable {reserves : BTreeMap Nat Reserve} {prices : OraclePrices}

/-- Collateral weighs no more in a health factor than it is worth. -/
theorem collateralValue_effective_le {index : Nat} {amount : Int} {found : PositionValue} (hamount : 0 ≤ amount)
    (hrate : ∀ reserve, reserves[index]? = some reserve → 0 ≤ reserve.data.bRate ∧ (reserve.config.cFactor : Int) ≤ SCALAR_7)
    (h : collateralValue reserves prices (index, amount) = .ok found) : found.effective ≤ found.raw := by
  simp only [collateralValue, bind_ok_iff, pure_ok_iff, Reserve.toEffectiveAssetFromBToken, Reserve.toAssetFromBToken] at h
  obtain ⟨r, hr, price, hprice, worth, hworth, raw, hraw, effective, ⟨worth', hworth', heffective⟩, value, hvalue, rfl⟩ := h
  obtain rfl : worth = worth' := Except.ok.inj (hworth.symm.trans hworth')
  obtain ⟨hrate, hfactor⟩ := hrate r (reserveAt_ok_iff.1 hr)
  rw [mulFloor_eq SCALAR_12_pos] at hworth
  have hworth0 : 0 ≤ worth := by
    rw [narrow_ok hworth]
    exact Int.ediv_nonneg (Int.mul_nonneg hamount hrate) SCALAR_12_pos.le
  rw [mulFloor_eq SCALAR_7_pos] at heffective
  have hle : effective ≤ worth := by
    rw [narrow_ok heffective]
    refine (Int.ediv_le_ediv SCALAR_7_pos (mul_le_mul_of_nonneg_left hfactor hworth0)).trans ?_
    rw [Int.mul_ediv_cancel _ SCALAR_7_pos.ne']
  rw [mulFloor_eq r.scalar_pos] at hraw hvalue
  rw [narrow_ok hraw, narrow_ok hvalue]
  exact Int.ediv_le_ediv r.scalar_pos (mul_le_mul_of_nonneg_left hle (price_pos hprice).le)

/-- A sound snapshot's collateral weighs no more than it is worth. -/
theorem PoolSnapshot.Sound.collateralBase_le {snapshot : PoolSnapshot} {account : String} {time : Nat} {data : PositionData}
    (h : snapshot.Sound) (hdata : snapshot.positionData account time = .ok (some data)) :
    data.collateralBase ≤ data.collateralRaw := by
  obtain ⟨positions, reserves, hpositions, -, hreserves, hvalued⟩ := PoolSnapshot.positionData_some_iff.1 hdata
  obtain ⟨held, owed, hheld, -, -, -, rfl⟩ := calculatePositionData_ok_iff.1 hvalued
  refine List.sum_le_sum fun found hmem => ?_
  obtain ⟨⟨index, amount⟩, hentry, -, hfound⟩ := Valued.mem hheld found hmem
  have hamount := h.collateral account positions hpositions index amount (Std.ExtTreeMap.mem_toList_iff_getElem?_eq_some.1 hentry)
  refine collateralValue_effective_le hamount (fun reserve hreserve => ?_) hfound
  obtain ⟨haccruable, hfactor⟩ := h.accrued hreserves hreserve
  exact ⟨haccruable.bRate, hfactor⟩

end Weight

section Row

variable {pool account : String} {snapshot : PoolSnapshot} {valuedAt : Nat} {row : Option TrackedUser}
  {answer : Option PositionData}

/-- Whether an account owes anything at all. -/
def PositionData.Owing (answer : Option PositionData) : Prop := ∃ data, answer = some data ∧ data.liabilityBase ≠ 0

theorem PositionData.not_owing_none : ¬PositionData.Owing none := by
  intro h
  obtain ⟨data, hsome, -⟩ := h
  cases hsome

theorem PositionData.not_owing_of_zero {data : PositionData} (hzero : data.liabilityBase = 0) :
    ¬PositionData.Owing (some data) := by
  intro h
  obtain ⟨data', hsome, hdebt⟩ := h
  obtain rfl := Option.some.inj hsome
  exact hdebt hzero

/-- Without a liability entry there is no debt to weigh. -/
theorem not_owing_of_not_owes (hdata : snapshot.positionData account valuedAt = .ok answer)
    (howes : Tracker.owes snapshot account = false) : ¬PositionData.Owing answer := by
  rintro ⟨data, rfl, hdebt⟩
  obtain ⟨positions, reserves, hpositions, -, -, hvalued⟩ := PoolSnapshot.positionData_some_iff.1 hdata
  obtain ⟨held, owed, -, howed, -, -, rfl⟩ := calculatePositionData_ok_iff.1 hvalued
  have hempty : positions.liabilities.isEmpty = true := by
    simpa [Tracker.owes, hpositions] using howes
  rw [Std.ExtTreeMap.isEmpty_iff] at hempty
  rw [hempty] at howed
  cases howed
  exact hdebt rfl

/-- The row a refresh writes is the account's health factor in 7 decimals, and
there is one exactly where the account owes something. -/
theorem refreshedRow_reads (hdata : snapshot.positionData account valuedAt = .ok answer)
    (hdebt : ∀ data, answer = some data → 0 ≤ data.liabilityBase)
    (hrow : Tracker.refreshedRow pool snapshot valuedAt account = .ok row) :
    (row = none ∧ ¬PositionData.Owing answer) ∨ ∃ data user, row = some user ∧ answer = some data ∧
      0 < data.liabilityBase ∧ user.healthFactor = data.normalizedHealth ∧ user.key = (pool, account) := by
  unfold Tracker.refreshedRow at hrow
  obtain ⟨health, hhealth, hrow⟩ := bind_ok_iff.1 hrow
  unfold Tracker.refreshedHealth at hhealth
  cases howes : Tracker.owes snapshot account with
  | false =>
    rw [howes] at hhealth
    cases hhealth
    refine .inl ⟨?_, not_owing_of_not_owes hdata howes⟩
    split at hrow
    · next heq => cases heq
    · exact (pure_ok_iff.1 hrow).symm
  | true =>
    rw [howes, if_pos rfl] at hhealth
    obtain ⟨answer', hanswer', hhealth⟩ := bind_ok_iff.1 hhealth
    rw [mapError_ok_iff, hdata] at hanswer'
    cases hanswer'
    cases answer with
    | none =>
      cases hhealth
      refine .inl ⟨?_, PositionData.not_owing_none⟩
      split at hrow
      · next heq => cases heq
      · exact (pure_ok_iff.1 hrow).symm
    | some data =>
      obtain ⟨positions, _, hpositions, -, -, hvalued⟩ := PoolSnapshot.positionData_some_iff.1 hdata
      obtain ⟨_, _, -, -, -, -, hsums⟩ := calculatePositionData_ok_iff.1 hvalued
      have hscalar : data.scalar = snapshot.prices.scalar := by rw [hsums]
      dsimp only at hhealth
      rw [mapError_ok_iff] at hhealth
      by_cases hzero : data.liabilityBase = 0
      · rw [PositionData.healthFactor, if_pos hzero] at hhealth
        cases hhealth
        refine .inl ⟨?_, PositionData.not_owing_of_zero hzero⟩
        split at hrow
        · next heq => cases heq
        · exact (pure_ok_iff.1 hrow).symm
      · have hpos : 0 < data.liabilityBase := lt_of_le_of_ne (hdebt data rfl) (Ne.symm hzero)
        cases health with
        | none =>
          rw [PositionData.healthFactor, if_neg hzero, map_ok_iff] at hhealth
          obtain ⟨_, -, hsome⟩ := hhealth
          cases hsome
        | some health =>
          rw [hpositions] at hrow
          obtain ⟨healthFactor, hfactor, hrow⟩ := bind_ok_iff.1 hrow
          rw [mapError_ok_iff, ← hscalar] at hfactor
          have hpositive : 0 < data.scalar := by
            rw [hscalar]
            exact snapshot.prices.scalar_pos
          obtain rfl := data.normalized_ok hpositive hpos hhealth hfactor
          exact .inr ⟨data, _, (pure_ok_iff.1 hrow).symm, rfl, hpos, rfl, rfl⟩

end Row

/-- With nothing of worth behind a debt, the health factor is none. -/
theorem PositionData.normalizedHealth_nonpos {data : PositionData} (hpos : 0 < data.liabilityBase) (hscalar : 0 < data.scalar)
    (hbase : data.collateralBase ≤ 0) : data.normalizedHealth ≤ 0 := by
  have hdown : ∀ {a d : Int}, 0 < d → a ≤ 0 → a / d ≤ 0 := fun {a d} hd ha =>
    (Int.ediv_le_ediv hd ha).trans (Int.zero_ediv d).le
  refine hdown hscalar (mul_nonpos_of_nonpos_of_nonneg (hdown hpos ?_) SCALAR_7_pos.le)
  exact mul_nonpos_of_nonpos_of_nonneg hbase hscalar.le

/-- What `judge` says of an account is its row's health factor against the
threshold. -/
theorem AuctioneerConfig.Judged.of_row {c : AuctioneerConfig} {reserves : BTreeMap Nat Reserve} {positions : Positions}
    {maxPositions : Nat} {data : PositionData} {decision : Decision}
    (h : c.Judged reserves positions maxPositions data decision) (hpos : 0 < data.liabilityBase)
    (hraw : data.collateralBase ≤ data.collateralRaw) (hscalar : 0 < data.scalar) (hone : 0 ≤ c.liquidationHealthFactor) :
    decision ≠ .skip .noLiabilities ∧ (decision = .skip .healthy ↔ c.liquidationHealthFactor < data.normalizedHealth) := by
  cases h with
  | noLiabilities hzero => exact absurd hzero hpos.ne'
  | badDebt hdebt hnothing =>
    have hnone := data.normalizedHealth_nonpos hpos hscalar (by omega)
    refine ⟨by simp, ⟨fun heq => (by cases heq), fun hhigh => ?_⟩⟩
    omega
  | healthy hdebt hsome hhealthy => exact ⟨by simp, by simpa using hhealthy⟩
  | noPlan hdebt hsome hlow hclosed => exact ⟨by simp, by simpa using hlow⟩
  | liquidate hdebt hsome hlow hclosable hown => exact ⟨by simp, by simpa using hlow⟩

/-- **Whoever is acted on is one the scan flags.** From the same snapshot, and
with the thresholds of an accepted configuration: a borrower is decided to have
no debt exactly where the tracker deletes its row, and healthy exactly where the
row it writes is above the liquidation threshold; any other borrower's row, once
written, is among those the auctioneer's own full scan flags. -/
theorem decided_are_scanned (args : Args) (lib : ConfigLibrary) (databaseUrl rpcApiKey telegramBotToken : Option String)
    (config : ServiceConfig) (signing : SigningContext) (snapshot : FullSnapshot) (valuedAt : Nat)
    (reserves : BTreeMap Nat Reserve) (pool account : String) (decision : Decision) (row : Option TrackedUser) (store : Store)
    (hparsed : args.Parsed)
    (hconfig : args.serviceWithSecrets lib databaseUrl rpcApiKey telegramBotToken = .ok config)
    (hsound : snapshot.Sound) (hreserves : snapshot.accruedReserves valuedAt = .ok reserves)
    (hjudge : (config.auctioneerConfig signing).judge snapshot reserves valuedAt account = .ok decision)
    (hrow : Tracker.refreshedRow pool snapshot.toPoolSnapshot valuedAt account = .ok row) :
    (decision = .skip .noLiabilities ↔ row = none) ∧
    (decision = .skip .healthy ↔ ∃ user, row = some user ∧ config.liquidationHealthFactor < user.healthFactor) ∧
    (decision ≠ .skip .noLiabilities → decision ≠ .skip .healthy →
      ∃ user ∈ (Tracker.rewritten pool account store row).below pool config.scanHealthFactor, user.account = account) := by
  obtain ⟨hnonneg, hbelow⟩ := (ServiceConfig.runnable_of_accepted hparsed hconfig).liquidation
  have hjudged := hjudge
  unfold AuctioneerConfig.judge at hjudged
  obtain ⟨answer, hanswer, -⟩ := bind_ok_iff.1 hjudged
  rw [mapError_ok_iff] at hanswer
  have hdebt : ∀ data, answer = some data → 0 ≤ data.liabilityBase := by
    rintro data rfl
    exact hsound.debt_nonneg hanswer
  rcases refreshedRow_reads hanswer hdebt hrow with ⟨rfl, howing⟩ | ⟨data, user, rfl, rfl, hpos, hfactor, hkey⟩
  · -- no row: nothing is owed
    have hnone : decision = .skip .noLiabilities := by
      cases answer with
      | none =>
        obtain ⟨_, hanswer', hrest⟩ := bind_ok_iff.1 hjudge
        rw [mapError_ok_iff, hanswer] at hanswer'
        cases hanswer'
        exact (pure_ok_iff.1 hrest).symm
      | some data =>
        obtain ⟨positions, -, hdecided⟩ := AuctioneerConfig.judge_judged hreserves hanswer (hdebt data rfl) hjudge
        have hzero : data.liabilityBase = 0 := by
          by_contra hne
          exact howing ⟨data, rfl, hne⟩
        cases hdecided <;> first | rfl | omega
    subst hnone
    simp
  · obtain ⟨positions, -, hdecided⟩ := AuctioneerConfig.judge_judged hreserves hanswer hpos.le hjudge
    have hscalar : 0 < data.scalar := by
      obtain ⟨_, _, -, -, -, hvalued⟩ := PoolSnapshot.positionData_some_iff.1 hanswer
      obtain ⟨_, _, -, -, -, -, rfl⟩ := calculatePositionData_ok_iff.1 hvalued
      exact snapshot.prices.scalar_pos
    obtain ⟨hsome, hhealthy⟩ := hdecided.of_row hpos (hsound.collateralBase_le hanswer) hscalar hnonneg
    refine ⟨by simpa using hsome, ?_, fun _ hunhealthy => ?_⟩
    · rw [hhealthy, ← hfactor]
      simp [ServiceConfig.auctioneerConfig]
    · have hlow : user.healthFactor ≤ config.liquidationHealthFactor := by
        rw [hfactor]
        exact not_lt.1 fun hhigh => hunhealthy (hhealthy.2 hhigh)
      have hwritten := @Store.user_upsertUser store pool account user
      rw [if_pos hkey.symm] at hwritten
      exact ⟨_, mem_below hwritten (by simpa using hlow.trans_lt hbelow), congrArg Prod.snd hkey⟩

/-- The sample borrower under the default knobs: it is written, and it is flagged
whatever else is decided of it. -/
theorem decided_are_scanned_short : ∃ (config : ServiceConfig) (decision : Decision) (row : Option TrackedUser),
    AuctioneerConfig.judge ⟨9980000, 10600000, ∅⟩ shortSnapshot sampleReserves 0 "borrower" = .ok decision ∧
      Tracker.refreshedRow "pool" shortSnapshot.toPoolSnapshot 0 "borrower" = .ok row ∧ row.isSome ∧
      (decision ≠ .skip .noLiabilities → decision ≠ .skip .healthy →
        ∃ user ∈ (Tracker.rewritten "pool" "borrower" { } row).below "pool" config.scanHealthFactor,
          user.account = "borrower") := by
  obtain ⟨config, hconfig⟩ := sampleArgs_configures.ok
  have hknobs := (Args.serviceWithSecrets_ok hconfig).2
  have hsame : config.auctioneerConfig ⟨⟨none, none⟩, ∅, ""⟩ = ⟨9980000, 10600000, ∅⟩ := by
    rw [ServiceConfig.auctioneerConfig, hknobs.liquidationHealthFactor, hknobs.targetHealthFactor]
    rfl
  have hjudged : (AuctioneerConfig.judge ⟨9980000, 10600000, ∅⟩ shortSnapshot sampleReserves 0 "borrower").isOk = true := by
    decide +kernel
  have hwritten : (Tracker.refreshedRow "pool" shortSnapshot.toPoolSnapshot 0 "borrower").toOption.join.isSome = true := by
    decide +kernel
  cases hjudge : AuctioneerConfig.judge ⟨9980000, 10600000, ∅⟩ shortSnapshot sampleReserves 0 "borrower" with
  | error error => rw [hjudge] at hjudged; cases hjudged
  | ok decision =>
    cases hrow : Tracker.refreshedRow "pool" shortSnapshot.toPoolSnapshot 0 "borrower" with
    | error error => rw [hrow] at hwritten; cases hwritten
    | ok row =>
      rw [hrow] at hwritten
      have hjudge' := hjudge
      rw [← hsame] at hjudge'
      exact ⟨config, decision, row, rfl, rfl, hwritten, (decided_are_scanned sampleArgs sampleConfigLibrary
        (some "postgres://localhost/bot") none none config _ shortSnapshot 0 sampleReserves "pool" "borrower" decision row { }
        sampleArgs_parsed hconfig shortSnapshot_sound rfl hjudge' hrow).2.2⟩

end BlendLiquidator
