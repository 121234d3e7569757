/-
Interest over a run of accruals (`Reserve::accrue`).

One accrual to a later time either overflows or keeps the run's invariant: the
rates and the backstop's credit do not fall, the supplies stay, `ir_mod` keeps
to its range, and what suppliers and the backstop are owed grows by no more
than what borrowers owe. That no divisor is zero is the rate curve's: each of
its branches divides by a range its own guard found positive.

The b-rate is a quotient rounded down, so that it does not fall needs the
backstop to leave at least one unit of whatever accrued.
-/
import BlendLiquidator.Valuation

namespace BlendLiquidator

open Results IntDiv

/-! ## Totals -/

/-- Total supplied underlying, exactly. -/
def Reserve.supplied (r : Reserve) : Int := r.worth r.data.bSupply

/-- Total borrowed underlying, exactly. -/
def Reserve.borrowed (r : Reserve) : Int := ceilDiv (r.data.dSupply * r.data.dRate) SCALAR_12

theorem Reserve.totalSupply_eq (r : Reserve) : r.totalSupply = narrow r.supplied := mulFloor_eq SCALAR_12_pos

theorem Reserve.totalLiabilities_eq (r : Reserve) : r.totalLiabilities = narrow r.borrowed := mulCeil_eq SCALAR_12_pos

/-- A reserve whose data are non-negative and whose `ir_mod` is in its range. -/
structure Reserve.Accruable (r : Reserve) : Prop where
  dRate : 0 ≤ r.data.dRate
  bRate : 0 ≤ r.data.bRate
  bSupply : 0 ≤ r.data.bSupply
  dSupply : 0 ≤ r.data.dSupply
  backstopCredit : 0 ≤ r.data.backstopCredit
  irMod : IR_MOD_MIN ≤ r.data.irMod ∧ r.data.irMod ≤ IR_MOD_MAX

section Curve

variable {config : ReserveConfig} {curUtil irMod : Int}

theorem mulCeil_nonneg {x y z v : Int} (hz : 0 < z) (hx : 0 ≤ x) (hy : 0 ≤ y) (h : mulCeil x y z = .ok v) : 0 ≤ v := by
  rw [mulCeil_eq hz] at h
  rw [narrow_ok h]
  exact ceilDiv_nonneg hz (Int.mul_nonneg hx hy)

theorem divCeil_nonneg {x y z v : Int} (hy : 0 < y) (hx : 0 ≤ x) (hz : 0 ≤ z) (h : divCeil x y z = .ok v) : 0 ≤ v :=
  mulCeil_nonneg hy hx hz h

/-! ## The rate curve -/

/-- A positive utilisation has a rate, or it overflows. -/
theorem currentRate_okOr (hutil : 0 < curUtil) : OkOr .overflow (currentRate config curUtil irMod) := by
  simp only [currentRate]
  split
  · next htarget =>
    refine OkOr.bind (mulDiv_okOr (hutil.trans_le htarget)) fun _ _ => ?_
    refine OkOr.bind (mulDiv_okOr SCALAR_7_pos) fun _ _ => OkOr.bind (narrow_okOr _) fun _ _ => ?_
    exact mulDiv_okOr SCALAR_7_pos
  split
  · next htarget hhigh =>
    refine OkOr.bind (narrow_okOr _) fun _ _ => OkOr.bind (narrow_okOr _) fun range hrange => ?_
    have hpos : 0 < range := by
      rw [narrow_ok hrange]
      omega
    refine OkOr.bind (mulDiv_okOr hpos) fun _ _ => ?_
    refine OkOr.bind (mulDiv_okOr SCALAR_7_pos) fun _ _ => OkOr.bind (narrow_okOr _) fun _ _ => ?_
    exact OkOr.bind (narrow_okOr _) fun _ _ => mulDiv_okOr SCALAR_7_pos
  · refine OkOr.bind (narrow_okOr _) fun _ _ => OkOr.bind (mulDiv_okOr (by decide)) fun _ _ => ?_
    refine OkOr.bind (mulDiv_okOr SCALAR_7_pos) fun _ _ => OkOr.bind (narrow_okOr _) fun _ _ => ?_
    refine OkOr.bind (narrow_okOr _) fun _ _ => OkOr.bind (mulDiv_okOr SCALAR_7_pos) fun _ _ => ?_
    exact narrow_okOr _

theorem currentRate_nonneg {rate : Int} (hutil : 0 < curUtil) (hmod : 0 ≤ irMod)
    (h : currentRate config curUtil irMod = .ok rate) : 0 ≤ rate := by
  simp only [currentRate] at h
  split at h
  · next htarget =>
    simp only [bind_ok_iff] at h
    obtain ⟨scalar, hscalar, slope, hslope, base, hbase, h⟩ := h
    have hscalar := divCeil_nonneg (hutil.trans_le htarget) hutil.le SCALAR_7_pos.le hscalar
    have hslope := mulCeil_nonneg SCALAR_7_pos hscalar (by omega) hslope
    have hbase := narrow_ok hbase
    exact mulCeil_nonneg SCALAR_7_pos (by omega) hmod h
  split at h
  · next htarget hhigh =>
    simp only [bind_ok_iff] at h
    obtain ⟨dif, hdif, range, hrange, scalar, hscalar, slope, hslope, one, hone, base, hbase, h⟩ := h
    have hdif := narrow_ok hdif
    have hrange := narrow_ok hrange
    have hscalar := divCeil_nonneg (by omega) (by omega) SCALAR_7_pos.le hscalar
    have hslope := mulCeil_nonneg SCALAR_7_pos hscalar (by omega) hslope
    have hone := narrow_ok hone
    have hbase := narrow_ok hbase
    exact mulCeil_nonneg SCALAR_7_pos (by omega) hmod h
  · next htarget hhigh =>
    simp only [bind_ok_iff] at h
    obtain ⟨dif, hdif, scalar, hscalar, extra, hextra, two, htwo, sum, hsum, crossing, hcrossing, h⟩ := h
    have hdif := narrow_ok hdif
    have hscalar := divCeil_nonneg (by decide) (by omega) SCALAR_7_pos.le hscalar
    have hextra := mulCeil_nonneg SCALAR_7_pos hscalar (by omega) hextra
    have htwo := narrow_ok htwo
    have hsum := narrow_ok hsum
    have hcrossing := mulCeil_nonneg SCALAR_7_pos hmod (by omega) hcrossing
    have hrate := narrow_ok h
    omega

theorem nextIrMod_okOr {utilDif deltaTime : Int} : OkOr .overflow (nextIrMod config utilDif irMod deltaTime) := by
  unfold nextIrMod
  refine OkOr.bind (narrow_okOr _) fun _ _ => ?_
  split
  · exact OkOr.bind (mulDiv_okOr SCALAR_7_pos) fun _ _ => OkOr.bind (narrow_okOr _) fun _ _ => .inl ⟨_, rfl⟩
  · exact OkOr.bind (mulDiv_okOr SCALAR_7_pos) fun _ _ => OkOr.bind (narrow_okOr _) fun _ _ => .inl ⟨_, rfl⟩

/-- The modifier moves towards the side it is clamped on, so the other bound
stays. -/
theorem nextIrMod_range {utilDif deltaTime new : Int} (htime : 0 ≤ deltaTime)
    (hmod : IR_MOD_MIN ≤ irMod ∧ irMod ≤ IR_MOD_MAX) (h : nextIrMod config utilDif irMod deltaTime = .ok new) :
    IR_MOD_MIN ≤ new ∧ new ≤ IR_MOD_MAX := by
  simp only [nextIrMod, bind_ok_iff] at h
  obtain ⟨error, herror, h⟩ := h
  have herror := narrow_ok herror
  split at h
  · next hdif =>
    simp only [bind_ok_iff, pure_ok_iff] at h
    obtain ⟨rateDif, hrate, moved, hmoved, rfl⟩ := h
    rw [mulFloor_eq SCALAR_7_pos] at hrate
    have hrate0 : 0 ≤ rateDif := by
      rw [narrow_ok hrate, herror]
      exact Int.ediv_nonneg (Int.mul_nonneg (Int.mul_nonneg htime hdif) (by omega)) SCALAR_7_pos.le
    have hmoved := narrow_ok hmoved
    exact ⟨le_min (by omega) (hmod.1.trans hmod.2), min_le_right _ _⟩
  · next hdif =>
    simp only [bind_ok_iff, pure_ok_iff] at h
    obtain ⟨rateDif, hrate, moved, hmoved, rfl⟩ := h
    rw [mulCeil_eq SCALAR_7_pos] at hrate
    have hrate0 : rateDif ≤ 0 := by
      rw [narrow_ok hrate, herror, ceilDiv_le_iff SCALAR_7_pos, Int.zero_mul]
      refine Int.mul_nonpos_of_nonpos_of_nonneg (Int.mul_nonpos_of_nonneg_of_nonpos htime ?_) (by omega)
      omega
    have hmoved := narrow_ok hmoved
    exact ⟨le_max_right _ _, max_le (by omega) (hmod.1.trans hmod.2)⟩

/-! ## One accrual -/

theorem calcAccrual_okOr {lastTime now : Nat} (hutil : 0 < curUtil) (htime : lastTime < now) :
    OkOr .overflow (calcAccrual config curUtil irMod lastTime now) := by
  simp only [calcAccrual]
  refine OkOr.bind (currentRate_okOr hutil) fun _ _ => ?_
  rw [if_neg (by omega), if_neg (by omega)]
  refine OkOr.bind (narrow_okOr _) fun _ _ => OkOr.bind nextIrMod_okOr fun _ _ => ?_
  refine OkOr.bind (narrow_okOr _) fun _ _ => OkOr.bind (mulDiv_okOr SCALAR_7_pos) fun _ _ => ?_
  exact OkOr.bind (narrow_okOr _) fun _ _ => .inl ⟨_, rfl⟩

/-- The loan accrual is a factor of one or more. -/
theorem calcAccrual_ok {lastTime now : Nat} {accrual new : Int} (hutil : 0 < curUtil) (htime : lastTime < now)
    (hmod : IR_MOD_MIN ≤ irMod ∧ irMod ≤ IR_MOD_MAX)
    (h : calcAccrual config curUtil irMod lastTime now = .ok (accrual, new)) :
    SCALAR_12 ≤ accrual ∧ IR_MOD_MIN ≤ new ∧ new ≤ IR_MOD_MAX := by
  have hmod0 : 0 ≤ irMod := le_trans (by decide) hmod.1
  simp only [calcAccrual] at h
  obtain ⟨rate, hrate, h⟩ := bind_ok_iff.1 h
  rw [if_neg (by omega), if_neg (by omega)] at h
  simp only [bind_ok_iff, pure_ok_iff, Prod.mk.injEq] at h
  obtain ⟨dif, -, irMod', hirMod, weight, hweight, interest, hinterest, factor, hfactor, rfl, rfl⟩ := h
  have hrate := currentRate_nonneg hutil hmod0 hrate
  have hweight0 : 0 ≤ weight / SECONDS_PER_YEAR := by
    rw [narrow_ok hweight]
    exact Int.ediv_nonneg (Int.mul_nonneg (by omega) SCALAR_12_pos.le) (by decide)
  have hinterest := mulCeil_nonneg SCALAR_7_pos hweight0 hrate hinterest
  have hfactor := narrow_ok hfactor
  exact ⟨by omega, nextIrMod_range (by omega) hmod hirMod⟩

end Curve

section Step

variable {r r' : Reserve} {bstopRate now : Nat}

theorem Reserve.borrowed_nonneg (h : r.Accruable) : 0 ≤ r.borrowed :=
  ceilDiv_nonneg SCALAR_12_pos (Int.mul_nonneg h.dSupply h.dRate)

theorem Reserve.utilization_okOr (h : r.Accruable) : OkOr .overflow r.utilization := by
  unfold Reserve.utilization
  rw [r.totalLiabilities_eq, r.totalSupply_eq]
  refine OkOr.bind (narrow_okOr _) fun liabilities hliabilities => OkOr.bind (narrow_okOr _) fun supply hsupply => ?_
  have hborrowed := Reserve.borrowed_nonneg h
  split
  · exact .inl ⟨_, rfl⟩
  split
  · exact .inl ⟨_, rfl⟩
  · have hliabilities := narrow_ok hliabilities
    exact mulDiv_okOr (by omega)

theorem Reserve.utilization_nonneg {util : Int} (h : r.Accruable) (hutil : r.utilization = .ok util) : 0 ≤ util := by
  simp only [Reserve.utilization, bind_ok_iff, r.totalLiabilities_eq, r.totalSupply_eq] at hutil
  obtain ⟨liabilities, hliabilities, supply, hsupply, hutil⟩ := hutil
  have hborrowed := Reserve.borrowed_nonneg h
  have hliabilities := narrow_ok hliabilities
  split at hutil
  · rw [← pure_ok_iff.1 hutil]
  split at hutil
  · rw [← pure_ok_iff.1 hutil]
    exact SCALAR_7_pos.le
  · exact divCeil_nonneg (by omega) (by omega) SCALAR_7_pos.le hutil

theorem backstopShare_okOr {accrued : Int} : OkOr .overflow (backstopShare accrued bstopRate) := by
  unfold backstopShare
  split
  · exact mulDiv_okOr SCALAR_7_pos
  · exact .inl ⟨0, rfl⟩

/-- Below its whole, the backstop's share leaves a unit of what accrued. -/
theorem backstopShare_ok {accrued share : Int} (hrate : (bstopRate : Int) < SCALAR_7) (haccrued : 0 < accrued)
    (h : backstopShare accrued bstopRate = .ok share) : 0 ≤ share ∧ share < accrued := by
  unfold backstopShare at h
  split at h
  · rw [mulFloor_eq SCALAR_7_pos] at h
    rw [narrow_ok h]
    refine ⟨Int.ediv_nonneg (Int.mul_nonneg haccrued.le (by omega)) SCALAR_7_pos.le, ?_⟩
    refine Int.ediv_lt_of_lt_mul SCALAR_7_pos ?_
    exact Int.mul_lt_mul_of_pos_left hrate haccrued
  · cases h
    exact ⟨le_rfl, haccrued⟩

theorem Reserve.accrueInterest_okOr {curUtil : Int} (hsupply : 0 < r.data.bSupply) (hutil : 0 < curUtil)
    (htime : r.data.lastTime < now) : OkOr .overflow (r.accrueInterest curUtil bstopRate now) := by
  unfold Reserve.accrueInterest
  refine OkOr.bind (calcAccrual_okOr hutil htime) fun accrual _ => ?_
  obtain ⟨loanAccrual, newIrMod⟩ := accrual
  refine OkOr.bind (mulDiv_okOr SCALAR_12_pos) fun _ _ => OkOr.bind (mulDiv_okOr SCALAR_12_pos) fun _ _ => ?_
  refine OkOr.bind (mulDiv_okOr SCALAR_12_pos) fun _ _ => OkOr.bind (mulDiv_okOr SCALAR_12_pos) fun _ _ => ?_
  refine OkOr.bind (narrow_okOr _) fun _ _ => ?_
  split
  · refine OkOr.bind backstopShare_okOr fun _ _ => OkOr.bind (narrow_okOr _) fun _ _ => ?_
    refine OkOr.bind (narrow_okOr _) fun _ _ => OkOr.bind (narrow_okOr _) fun _ _ => ?_
    exact OkOr.bind (mulDiv_okOr hsupply) fun _ _ => .inl ⟨_, rfl⟩
  · exact .inl ⟨_, rfl⟩

/-- What an accrual, or a run of them, leaves of a reserve. -/
structure Accrues (r r' : Reserve) : Prop where
  accruable : r'.Accruable
  dRate : r.data.dRate ≤ r'.data.dRate
  bRate : r.data.bRate ≤ r'.data.bRate
  backstopCredit : r.data.backstopCredit ≤ r'.data.backstopCredit
  bSupply : r'.data.bSupply = r.data.bSupply
  dSupply : r'.data.dSupply = r.data.dSupply
  growth : r'.supplied + r'.data.backstopCredit - (r.supplied + r.data.backstopCredit) ≤ r'.borrowed - r.borrowed

theorem Accrues.refl (h : r.Accruable) : Accrues r r := ⟨h, le_rfl, le_rfl, le_rfl, rfl, rfl, by omega⟩

theorem Accrues.trans {mid : Reserve} (h : Accrues r mid) (h' : Accrues mid r') : Accrues r r' where
  accruable := h'.accruable
  dRate := h.dRate.trans h'.dRate
  bRate := h.bRate.trans h'.bRate
  backstopCredit := h.backstopCredit.trans h'.backstopCredit
  bSupply := h'.bSupply.trans h.bSupply
  dSupply := h'.dSupply.trans h.dSupply
  growth := by
    have hfirst := h.growth
    have hsecond := h'.growth
    omega

/-- The time alone. -/
theorem Accrues.timed (h : r.Accruable) (now : Nat) : Accrues r { r with data := { r.data with lastTime := now } } :=
  ⟨⟨h.dRate, h.bRate, h.bSupply, h.dSupply, h.backstopCredit, h.irMod⟩, le_rfl, le_rfl, le_rfl, rfl, rfl,
    by simp only [Reserve.supplied, Reserve.borrowed, Reserve.worth]; omega⟩

/-- A ceiling of a factor of one or more is no less. -/
theorem le_mulCeil {factor rate v : Int} (hrate : 0 ≤ rate) (hfactor : SCALAR_12 ≤ factor)
    (h : mulCeil factor rate SCALAR_12 = .ok v) : rate ≤ v := by
  rw [mulCeil_eq SCALAR_12_pos] at h
  rw [narrow_ok h]
  refine le_of_mul_le_mul_right ?_ SCALAR_12_pos
  calc rate * SCALAR_12 = SCALAR_12 * rate := Int.mul_comm _ _
    _ ≤ factor * rate := Int.mul_le_mul_of_nonneg_right hfactor hrate
    _ ≤ ceilDiv (factor * rate) SCALAR_12 * SCALAR_12 := le_ceilDiv_mul SCALAR_12_pos

/-- The rate of more underlying than the supply's floor is worth is no lower,
and the supply is worth no more than it. -/
theorem rate_of_supply {bSupply bRate after v : Int} (hsupply : 0 < bSupply) (hafter : bSupply * bRate / SCALAR_12 < after)
    (h : divFloor after bSupply SCALAR_12 = .ok v) : bRate ≤ v ∧ bSupply * v / SCALAR_12 ≤ after := by
  rw [divFloor_eq hsupply] at h
  rw [narrow_ok h]
  constructor
  · rw [Int.le_ediv_iff_mul_le hsupply, Int.mul_comm]
    have hlt := (Int.ediv_lt_iff_lt_mul SCALAR_12_pos).1 hafter
    exact hlt.le
  · have hmul : bSupply * (after * SCALAR_12 / bSupply) ≤ after * SCALAR_12 := by
      rw [Int.mul_comm]
      exact ediv_mul_le' hsupply
    calc bSupply * (after * SCALAR_12 / bSupply) / SCALAR_12 ≤ after * SCALAR_12 / SCALAR_12 :=
          Int.ediv_le_ediv SCALAR_12_pos hmul
      _ = after := Int.mul_ediv_cancel _ SCALAR_12_pos.ne'

theorem Reserve.accrueInterest_accrues {curUtil : Int} (hr : r.Accruable) (hsupply : 0 < r.data.bSupply)
    (hrate : (bstopRate : Int) < SCALAR_7) (hutil : 0 < curUtil) (htime : r.data.lastTime < now)
    (h : r.accrueInterest curUtil bstopRate now = .ok r') : Accrues r r' ∧ r'.data.lastTime = now := by
  simp only [Reserve.accrueInterest, bind_ok_iff] at h
  obtain ⟨⟨accrual, irMod⟩, haccrual, supply, hpre, liabilities, howed, dRate, hdRate, total, htotal, accrued, haccrued,
    h⟩ := h
  obtain ⟨hfactor, hmod⟩ := calcAccrual_ok hutil htime hr.irMod haccrual
  have hdRate := le_mulCeil hr.dRate hfactor hdRate
  rw [r.totalSupply_eq] at hpre
  rw [r.totalLiabilities_eq] at howed
  rw [Reserve.totalLiabilities_eq] at htotal
  have hpre := narrow_ok hpre
  have hgrown : accrued = total - r.borrowed := by rw [narrow_ok haccrued, narrow_ok howed]
  have htotal := narrow_ok htotal
  simp only [Reserve.borrowed] at htotal
  split at h
  · next hpositive =>
    simp only [bind_ok_iff, pure_ok_iff] at h
    obtain ⟨share, hshare, credit, hcredit, sum, hsum, after, hafter, bRate, hbRate, rfl⟩ := h
    obtain ⟨hshare0, hshare⟩ := backstopShare_ok hrate hpositive hshare
    have hcredit := narrow_ok hcredit
    have hsum := narrow_ok hsum
    have hafter := narrow_ok hafter
    have hmore : r.data.bSupply * r.data.bRate / SCALAR_12 < after := by
      have hfloor : r.supplied = r.data.bSupply * r.data.bRate / SCALAR_12 := rfl
      omega
    obtain ⟨hbRate, hworth⟩ := rate_of_supply hsupply hmore hbRate
    refine ⟨⟨⟨hr.dRate.trans hdRate, hr.bRate.trans hbRate, hr.bSupply, hr.dSupply, ?_, hmod⟩, hdRate, hbRate, ?_, rfl, rfl,
      ?_⟩, rfl⟩
    · have hcredit0 := hr.backstopCredit
      dsimp only
      omega
    · dsimp only
      omega
    · simp only [Reserve.supplied, Reserve.worth, Reserve.borrowed] at hpre hgrown ⊢
      omega
  · next hnone =>
    rw [pure_ok_iff] at h
    subst h
    refine ⟨⟨⟨hr.dRate.trans hdRate, hr.bRate, hr.bSupply, hr.dSupply, hr.backstopCredit, hmod⟩, hdRate, le_rfl, le_rfl, rfl,
      rfl, ?_⟩, rfl⟩
    have hmono : r.borrowed ≤ total := by
      rw [htotal]
      exact ceilDiv_mono SCALAR_12_pos (Int.mul_le_mul_of_nonneg_left hdRate hr.dSupply)
    simp only [Reserve.supplied, Reserve.worth, Reserve.borrowed] at hmono ⊢
    omega

/-- One accrual to a time no earlier answers, or overflows. -/
theorem Reserve.accrue_okOr (hr : r.Accruable) (htime : r.data.lastTime ≤ now) :
    OkOr .overflow (r.accrue bstopRate now) := by
  simp only [Reserve.accrue]
  split
  · exact .inl ⟨_, rfl⟩
  next hsame =>
  rw [if_neg (by omega)]
  split
  · exact .inl ⟨_, rfl⟩
  next hsupply =>
  refine OkOr.bind (Reserve.utilization_okOr hr) fun util hutil => ?_
  split
  · exact .inl ⟨_, rfl⟩
  next hidle =>
  have hsupply0 := hr.bSupply
  have hutil := Reserve.utilization_nonneg hr hutil
  exact Reserve.accrueInterest_okOr (by omega) (by omega) (by omega)

/-- One accrual that answers keeps the invariant, and its time is the one it was
given. -/
theorem Reserve.accrue_accrues (hr : r.Accruable) (hrate : (bstopRate : Int) < SCALAR_7)
    (h : r.accrue bstopRate now = .ok r') : Accrues r r' ∧ r'.data.lastTime = now := by
  simp only [Reserve.accrue] at h
  split at h
  · next hsame =>
    cases h
    exact ⟨.refl hr, hsame.symm⟩
  next hsame =>
  split at h
  · cases h
  next hlater =>
  split at h
  · cases h
    exact ⟨.timed hr now, rfl⟩
  next hsupply =>
  obtain ⟨util, hutil, h⟩ := bind_ok_iff.1 h
  split at h
  · cases h
    exact ⟨.timed hr now, rfl⟩
  next hidle =>
  have hsupply0 := hr.bSupply
  have hutil := Reserve.utilization_nonneg hr hutil
  exact Reserve.accrueInterest_accrues hr (by omega) hrate (by omega) (by omega) h

end Step

/-! ## Runs -/

/-- A reserve accrued to each of the times in turn. -/
def Reserve.accrueAll (bstopRate : Nat) (times : List Nat) (r : Reserve) : Except MathError Reserve :=
  times.foldlM (fun r now => r.accrue bstopRate now) r

section Runs

variable {r r' : Reserve} {bstopRate : Nat} {times : List Nat}

theorem Reserve.accrueAll_accrues (hr : r.Accruable) (hrate : (bstopRate : Int) < SCALAR_7)
    (h : r.accrueAll bstopRate times = .ok r') : Accrues r r' ∧ r'.data.lastTime = times.getLastD r.data.lastTime := by
  induction times generalizing r with
  | nil =>
    cases h
    exact ⟨.refl hr, rfl⟩
  | cons now rest ih =>
    rw [Reserve.accrueAll, List.foldlM_cons, bind_ok_iff] at h
    obtain ⟨mid, hmid, hrest⟩ := h
    obtain ⟨hstep, htime⟩ := Reserve.accrue_accrues hr hrate hmid
    obtain ⟨hrun, hlast⟩ := ih hstep.accruable hrest
    refine ⟨hstep.trans hrun, ?_⟩
    rw [hlast, htime, List.getLastD_cons]

/-- A run forwards in time answers, or overflows. -/
theorem Reserve.accrueAll_okOr (hr : r.Accruable) (hrate : (bstopRate : Int) < SCALAR_7)
    (htimes : (r.data.lastTime :: times).Pairwise (· ≤ ·)) : OkOr .overflow (r.accrueAll bstopRate times) := by
  induction times generalizing r with
  | nil => exact .inl ⟨r, rfl⟩
  | cons now rest ih =>
    rw [Reserve.accrueAll, List.foldlM_cons]
    obtain ⟨hfirst, hrest⟩ := List.pairwise_cons.1 htimes
    refine OkOr.bind (Reserve.accrue_okOr hr (hfirst now (by simp))) fun mid hmid => ?_
    obtain ⟨hstep, htime⟩ := Reserve.accrue_accrues hr hrate hmid
    refine ih hstep.accruable ?_
    rwa [htime]

/-- No accrual divides by zero, whatever its time: one before the reserve's own
is refused. -/
theorem Reserve.accrue_ne_divisionByZero {now : Nat} (hr : r.Accruable) :
    r.accrue bstopRate now ≠ .error .divisionByZero := by
  intro hzero
  by_cases htime : r.data.lastTime ≤ now
  · rcases Reserve.accrue_okOr hr htime with ⟨r', hok⟩ | hoverflow
    · rw [hzero] at hok
      cases hok
    · rw [hzero] at hoverflow
      cases hoverflow
  · simp only [Reserve.accrue] at hzero
    rw [if_neg (by omega), if_pos (by omega)] at hzero
    cases hzero

theorem Reserve.accrueAll_ne_divisionByZero (hr : r.Accruable) (hrate : (bstopRate : Int) < SCALAR_7) :
    r.accrueAll bstopRate times ≠ .error .divisionByZero := by
  induction times generalizing r with
  | nil => simp [Reserve.accrueAll, pure, Except.pure]
  | cons now rest ih =>
    intro hzero
    rw [Reserve.accrueAll, List.foldlM_cons] at hzero
    cases hmid : r.accrue bstopRate now with
    | error error =>
      rw [hmid] at hzero
      cases hzero
      exact Reserve.accrue_ne_divisionByZero hr hmid
    | ok mid =>
      rw [hmid] at hzero
      exact ih (Reserve.accrue_accrues hr hrate hmid).1.accruable hzero

end Runs

/-- **What every run of accruals keeps.** From non-negative data, through any
strictly increasing times none of which is before the reserve's own: a run that
does not overflow answers, and then the rates and the credit have not fallen,
`ir_mod` is in its range, the supplies are as they were, the time is the last
one given, and the totals suppliers and the backstop are owed have grown by no
more than the total borrowers owe. Whatever the times, no divisor is zero. -/
theorem accrual_invariant (r : Reserve) (bstopRate : Nat) (times : List Nat) (hr : r.Accruable)
    (hrate : (bstopRate : Int) < SCALAR_7) (htimes : times.Pairwise (· < ·)) :
    r.accrueAll bstopRate times ≠ .error .divisionByZero ∧
    ((∀ now ∈ times, r.data.lastTime ≤ now) → OkOr .overflow (r.accrueAll bstopRate times)) ∧
    ∀ r', r.accrueAll bstopRate times = .ok r' →
      r.data.dRate ≤ r'.data.dRate ∧ r.data.bRate ≤ r'.data.bRate ∧
      r.data.backstopCredit ≤ r'.data.backstopCredit ∧ (1000000 ≤ r'.data.irMod ∧ r'.data.irMod ≤ 100000000) ∧
      r'.data.bSupply = r.data.bSupply ∧ r'.data.dSupply = r.data.dSupply ∧
      (∀ last ∈ times.getLast?, r'.data.lastTime = last) ∧
      (∀ supply liabilities supply' liabilities', r.totalSupply = .ok supply → r.totalLiabilities = .ok liabilities →
        r'.totalSupply = .ok supply' → r'.totalLiabilities = .ok liabilities' →
        (supply' + r'.data.backstopCredit) - (supply + r.data.backstopCredit) ≤ liabilities' - liabilities) ∧
      r'.Accruable := by
  refine ⟨Reserve.accrueAll_ne_divisionByZero hr hrate, fun hlater => ?_, fun r' h => ?_⟩
  · exact Reserve.accrueAll_okOr hr hrate (List.pairwise_cons.2 ⟨hlater, htimes.imp fun h => h.le⟩)
  · obtain ⟨haccrues, htime⟩ := Reserve.accrueAll_accrues hr hrate h
    refine ⟨haccrues.dRate, haccrues.bRate, haccrues.backstopCredit, haccrues.accruable.irMod, haccrues.bSupply,
      haccrues.dSupply, fun last hlast => ?_, ?_, haccrues.accruable⟩
    · rw [htime, List.getLastD_eq_getLast?, hlast]
      rfl
    · intro supply liabilities supply' liabilities' hsupply hliabilities hsupply' hliabilities'
      rw [Reserve.totalSupply_eq] at hsupply hsupply'
      rw [Reserve.totalLiabilities_eq] at hliabilities hliabilities'
      rw [narrow_ok hsupply, narrow_ok hliabilities, narrow_ok hsupply', narrow_ok hliabilities']
      exact haccrues.growth

/-- A reserve two thirds of which is borrowed. -/
def accruingReserve : Reserve where
  asset := "USDC"
  config :=
    { index := 0, decimals := 7, cFactor := 9000000, lFactor := 9000000, util := 5000000, maxUtil := 9500000
      rBase := 100000, rOne := 500000, rTwo := 5000000, rThree := 15000000, reactivity := 100, supplyCap := 10 ^ 15
      enabled := true }
  data :=
    { dRate := SCALAR_12, bRate := SCALAR_12, irMod := SCALAR_7, bSupply := 3 * 10 ^ 12, dSupply := 2 * 10 ^ 12
      backstopCredit := 0, lastTime := 100 }
  scalar := 10 ^ 7
  scalar_eq := SCALAR_7_eq

/-- Two accruals of it, a day apart: both rates rise. -/
theorem accrual_invariant_twice : ∃ r', accruingReserve.accrueAll 2000000 [86500, 172900] = .ok r' ∧
    SCALAR_12 < r'.data.dRate ∧ SCALAR_12 < r'.data.bRate ∧ accruingReserve.data.bRate ≤ r'.data.bRate ∧
    r'.data.lastTime = 172900 := by
  have hr : accruingReserve.Accruable := by constructor <;> decide
  have hrun : ((accruingReserve.accrueAll 2000000 [86500, 172900]).toOption.any fun r' =>
      decide (SCALAR_12 < r'.data.dRate ∧ SCALAR_12 < r'.data.bRate)) = true := by decide +kernel
  obtain ⟨-, hanswers, hkeeps⟩ := accrual_invariant accruingReserve 2000000 [86500, 172900] hr (by decide) (by decide)
  rcases hanswers (by decide) with ⟨r', hok⟩ | hoverflow
  · rw [hok] at hrun
    obtain ⟨-, hbRate, -, -, -, -, htime, -⟩ := hkeeps r' hok
    have hrates : SCALAR_12 < r'.data.dRate ∧ SCALAR_12 < r'.data.bRate := by simpa [Except.toOption] using hrun
    exact ⟨r', hok, hrates.1, hrates.2, hbRate, htime 172900 (by simp)⟩
  · rw [hoverflow] at hrun
    cases hrun

end BlendLiquidator
