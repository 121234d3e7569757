/-
`fill_delay` is the least admissible delay: its two closed forms agree with a
search over the two ramps.

Both ramps move in steps of 1/200, so a delay meets the margin when a multiple
of the lot reaches a multiple of the bid, with no rounding. On the first ramp
the multiple of the lot grows, on the second the multiple of the bid shrinks,
and the closed form is the quotient either one crosses at.
-/
import Mathlib.Tactic.Linarith
import Mathlib.Tactic.Ring
import BlendLiquidator.AuctionFacts
import BlendLiquidator.Fill

namespace BlendLiquidator

open Results IntDiv

theorem meetsMargin_iff {delay profitBps : Nat} {lotRaw bidRaw : Int} :
    meetsMargin delay lotRaw bidRaw profitBps = true ↔
      bidRaw * (BPS + profitBps) * (min (400 - delay) 200 : Nat) ≤ lotRaw * BPS * (min delay 200 : Nat) := by
  unfold meetsMargin
  rw [lotModifier_eq, bidModifier_eq, decide_eq_true_eq, ge_iff_le]
  have hbid : bidRaw * ((min (400 - delay) 200 : Nat) * PER_BLOCK_SCALAR) * (BPS + profitBps) =
      bidRaw * (BPS + profitBps) * (min (400 - delay) 200 : Nat) * PER_BLOCK_SCALAR := by ring
  have hlot : lotRaw * ((min delay 200 : Nat) * PER_BLOCK_SCALAR) * BPS =
      lotRaw * BPS * (min delay 200 : Nat) * PER_BLOCK_SCALAR := by ring
  rw [hbid, hlot]
  exact mul_le_mul_iff_left₀ (by decide)

/-- A delay that is the first to meet the margin. -/
def LeastDelay (lotRaw bidRaw : Int) (profitBps d : Nat) : Prop :=
  d ≤ RAMP_END_BLOCKS ∧ meetsMargin d lotRaw bidRaw profitBps = true ∧
    ∀ k < d, meetsMargin k lotRaw bidRaw profitBps = false

/-! ## The two ramps -/

section Ramps

variable {cost worth : Int}

/-- The ramps of a bid that costs `cost` and a lot that is worth `worth` have
crossed, `d` ledgers on. -/
def Crossed (cost worth : Int) (d : Nat) : Prop := cost * (min (400 - d) 200 : Nat) ≤ worth * (min d 200 : Nat)

theorem leastDelay_of_crossed {lotRaw bidRaw : Int} {profitBps d : Nat} (hd : d ≤ 400)
    (hmeets : Crossed (bidRaw * (BPS + profitBps)) (lotRaw * BPS) d)
    (hfirst : ∀ k < d, ¬Crossed (bidRaw * (BPS + profitBps)) (lotRaw * BPS) k) :
    LeastDelay lotRaw bidRaw profitBps d := by
  refine ⟨hd, meetsMargin_iff.2 hmeets, fun k hk => ?_⟩
  rw [Bool.eq_false_iff]
  exact fun h => hfirst k hk (meetsMargin_iff.1 h)

theorem crossed_lot_iff {d : Nat} (hd : d ≤ 200) : Crossed cost worth d ↔ cost * 200 ≤ worth * d := by
  unfold Crossed
  rw [Nat.min_eq_left hd, Nat.min_eq_right (by omega)]
  rfl

theorem crossed_bid_iff {d : Nat} (hd : 200 ≤ d) : Crossed cost worth d ↔ cost * (400 - d : Nat) ≤ worth * 200 := by
  unfold Crossed
  rw [Nat.min_eq_right hd, Nat.min_eq_left (by omega)]
  rfl

/-- Where a whole lot covers the bid, they cross on the lot's ramp. -/
theorem crossed_lot_first (hworth : 0 < worth) (hcost : 0 ≤ cost) (hcovers : cost ≤ worth) :
    ∃ d : Nat, ceilDiv (cost * 200) worth = d ∧ d ≤ 200 ∧ Crossed cost worth d ∧
      ∀ k < d, ¬Crossed cost worth k := by
  obtain ⟨d, hd⟩ := Int.eq_ofNat_of_zero_le (ceilDiv_nonneg (a := cost * 200) hworth (by omega))
  have key : ∀ c, ceilDiv (cost * 200) worth ≤ c ↔ cost * 200 ≤ c * worth := fun c => ceilDiv_le_iff hworth
  rw [hd] at key
  have hle : d ≤ 200 := by
    have := (key 200).2 (by linarith)
    omega
  refine ⟨d, hd, hle, ?_, fun k hk => ?_⟩
  · rw [crossed_lot_iff hle, Int.mul_comm worth]
    exact (key d).1 le_rfl
  · rw [crossed_lot_iff (by omega), Int.mul_comm worth, ← key k]
    omega

/-- Where it does not, on the bid's. -/
theorem crossed_bid_first (hworth : 0 ≤ worth) (hshort : worth < cost) :
    ∃ covered : Nat, worth * 200 / cost = covered ∧ covered ≤ 200 ∧ Crossed cost worth (400 - covered) ∧
      ∀ k < 400 - covered, ¬Crossed cost worth k := by
  have hcost : 0 < cost := by omega
  obtain ⟨covered, hcovered⟩ := Int.eq_ofNat_of_zero_le (Int.ediv_nonneg (a := worth * 200) (by omega) hcost.le)
  have key : ∀ c, c ≤ worth * 200 / cost ↔ c * cost ≤ worth * 200 := fun c => Int.le_ediv_iff_mul_le hcost
  rw [hcovered] at key
  have hle : covered < 200 := by
    by_contra hlarge
    have := (key 200).1 (by omega)
    linarith
  refine ⟨covered, hcovered, hle.le, ?_, fun k hk => ?_⟩
  · rw [crossed_bid_iff (by omega), Nat.sub_sub_self (by omega), Int.mul_comm cost]
    exact (key covered).1 le_rfl
  · by_cases hramp : k ≤ 200
    · rw [crossed_lot_iff hramp]
      have hlot : worth * k ≤ worth * 200 := Int.mul_le_mul_of_nonneg_left (by omega) hworth
      linarith
    · rw [crossed_bid_iff (by omega), Int.mul_comm cost, ← key]
      omega

end Ramps

/-! ## The closed form -/

theorem toU32_natCast {n : Nat} (h : n ≤ u32Max) : toU32 n = .ok n := by
  unfold toU32
  rw [if_pos ⟨by omega, by exact_mod_cast h⟩]
  rfl

theorem narrow_cases (x : Int) (h : i128Min ≤ x) :
    narrow x = .ok x ∨ narrow x = .error .overflow ∧ i128Max < x := by
  unfold narrow checked
  by_cases hx : x ≤ i128Max
  · simp [h, hx]
  · simp [hx, Int.not_le.1 hx]

theorem narrow_small {x : Int} (h0 : 0 ≤ x) (h : x ≤ 2 ^ 60) : narrow x = .ok x :=
  narrow_of_le h0 h (by decide)

/-- What the closed form may answer: the least delay, or an overflow of one of
its two products. -/
def DelayAnswer (lotRaw bidRaw : Int) (profitBps : Nat) (answer : Except MathError Nat) : Prop :=
  (∃ d, answer = .ok d ∧ LeastDelay lotRaw bidRaw profitBps d) ∨
  (answer = .error .overflow ∧ (i128Max < lotRaw * BPS ∨ i128Max < bidRaw * (BPS + profitBps)))

section ClosedForm

variable {lotRaw bidRaw : Int} {profitBps : Nat}

theorem rampDelay_lot (hlot : 0 < lotRaw) (hbid : 0 < bidRaw) (hbps : profitBps ≤ u32Max)
    (hcovers : lotRaw * BPS ≥ bidRaw * (BPS + profitBps)) :
    DelayAnswer lotRaw bidRaw profitBps (rampDelay lotRaw bidRaw (BPS + profitBps)) := by
  have hworth : 0 < lotRaw * BPS := Int.mul_pos hlot (by decide)
  have hcost : 0 ≤ bidRaw * (BPS + profitBps) := Int.mul_nonneg hbid.le (by simp only [BPS]; omega)
  have hsteps : bidRaw * ((RAMP_BLOCKS : Int) * (BPS + profitBps)) = bidRaw * (BPS + profitBps) * 200 := by
    simp only [RAMP_BLOCKS]
    push_cast
    ring
  have hfactor : narrow ((RAMP_BLOCKS : Int) * (BPS + profitBps)) = .ok ((RAMP_BLOCKS : Int) * (BPS + profitBps)) := by
    simp only [RAMP_BLOCKS, BPS, u32Max] at hbps ⊢
    exact narrow_small (by omega) (by omega)
  unfold rampDelay
  rw [if_neg hbid.ne', if_neg hlot.ne', if_pos hcovers]
  rcases narrow_cases (lotRaw * BPS) (by simp only [i128Min]; omega) with hfits | ⟨hover, hmax⟩
  · obtain ⟨d, hd, hle, hcrossed, hfirst⟩ := crossed_lot_first hworth hcost hcovers
    refine .inl ⟨d, ?_, leastDelay_of_crossed (by omega) hcrossed hfirst⟩
    simp only [hfits, hfactor, mulCeil_eq hworth, hsteps, hd, narrow_small (x := d) (by omega) (by omega), bind,
      Except.bind]
    exact toU32_natCast (by simp only [u32Max]; omega)
  · refine .inr ⟨?_, .inl hmax⟩
    simp only [hover, bind, Except.bind]

theorem rampDelay_bid (hlot : 0 < lotRaw) (hbid : 0 < bidRaw) (hshort : ¬lotRaw * BPS ≥ bidRaw * (BPS + profitBps)) :
    DelayAnswer lotRaw bidRaw profitBps (rampDelay lotRaw bidRaw (BPS + profitBps)) := by
  have hworth : 0 ≤ lotRaw * BPS := Int.mul_nonneg hlot.le (by decide)
  have hcost : 0 < bidRaw * (BPS + profitBps) := Int.mul_pos hbid (by simp only [BPS]; omega)
  have hsteps : lotRaw * ((RAMP_BLOCKS : Int) * BPS) = lotRaw * BPS * 200 := by
    simp only [RAMP_BLOCKS]
    push_cast
    ring
  have hfactor : narrow ((RAMP_BLOCKS : Int) * BPS) = .ok ((RAMP_BLOCKS : Int) * BPS) := rfl
  unfold rampDelay
  rw [if_neg hbid.ne', if_neg hlot.ne', if_neg hshort]
  rcases narrow_cases (bidRaw * (BPS + profitBps)) (by simp only [i128Min]; omega) with hfits | ⟨hover, hmax⟩
  · obtain ⟨covered, hd, hle, hcrossed, hfirst⟩ := crossed_bid_first hworth (Int.not_le.1 hshort)
    have hu32 : toU32 covered = .ok covered := toU32_natCast (by simp only [u32Max]; omega)
    refine .inl ⟨400 - covered, ?_, leastDelay_of_crossed (by omega) hcrossed hfirst⟩
    simp only [hfits, hfactor, mulFloor_eq hcost, hsteps, hd, narrow_small (x := covered) (by omega) (by omega), hu32,
      bind, Except.bind]
    rw [if_pos (by simp only [RAMP_END_BLOCKS]; omega)]
    rfl
  · refine .inr ⟨?_, .inr hmax⟩
    simp only [hover, bind, Except.bind]

theorem rampDelay_answer (hlot : 0 ≤ lotRaw) (hbid : 0 ≤ bidRaw) (hbps : profitBps ≤ u32Max) :
    DelayAnswer lotRaw bidRaw profitBps (rampDelay lotRaw bidRaw (BPS + profitBps)) := by
  by_cases hbid0 : bidRaw = 0
  · have hzero : rampDelay lotRaw bidRaw (BPS + profitBps) = .ok 0 := by
      unfold rampDelay
      rw [if_pos hbid0]
    refine .inl ⟨0, hzero, leastDelay_of_crossed (by omega) ?_ fun k hk => absurd hk (by omega)⟩
    simp [Crossed, hbid0]
  by_cases hlot0 : lotRaw = 0
  · have hend : rampDelay lotRaw bidRaw (BPS + profitBps) = .ok 400 := by
      unfold rampDelay
      rw [if_neg hbid0, if_pos hlot0]
      rfl
    -- Nothing covers a bid until it is gone.
    refine .inl ⟨400, hend, leastDelay_of_crossed le_rfl ?_ fun k hk hcrossed => ?_⟩
    · simp [Crossed, hlot0]
    · have hpos : 0 < bidRaw * (BPS + profitBps) * (min (400 - k) 200 : Nat) :=
        Int.mul_pos (Int.mul_pos (by omega) (by simp only [BPS]; omega)) (by omega)
      simp only [Crossed, hlot0, Int.zero_mul] at hcrossed
      omega
  by_cases hcovers : lotRaw * BPS ≥ bidRaw * (BPS + profitBps)
  · exact rampDelay_lot (by omega) (by omega) hbps hcovers
  · exact rampDelay_bid (by omega) (by omega) hcovers

end ClosedForm

theorem fillDelay_eq {lotRaw bidRaw : Int} {profitBps : Nat} {forceFill : Bool} (hlot : 0 ≤ lotRaw)
    (hbid : 0 ≤ bidRaw) (hbps : profitBps ≤ u32Max) :
    fillDelay lotRaw bidRaw profitBps forceFill =
      (fun delay => if forceFill then min delay FORCE_FILL_MAX_DELAY else delay) <$>
        rampDelay lotRaw bidRaw (BPS + profitBps) := by
  have hmargin : narrow (BPS + profitBps) = .ok (BPS + (profitBps : Int)) := by
    refine narrow_ok_iff.2 ⟨rfl, ?_⟩
    simp only [i128Min, i128Max, BPS, u32Max] at hbps ⊢
    omega
  have hsigns : ¬(lotRaw < 0 ∨ bidRaw < 0) := by omega
  unfold fillDelay
  simp only [hsigns, if_false, hmargin]
  rfl

/-- The delay is the first to meet the margin, `force_fill` caps it, and it
overflows only where the lot's or the bid's own product does. -/
theorem fillDelay_least {lotRaw bidRaw : Int} {profitBps : Nat} (hlot : 0 ≤ lotRaw) (hbid : 0 ≤ bidRaw)
    (hbps : profitBps ≤ u32Max) :
    (∀ d, fillDelay lotRaw bidRaw profitBps false = .ok d → LeastDelay lotRaw bidRaw profitBps d) ∧
    fillDelay lotRaw bidRaw profitBps true =
      (min · FORCE_FILL_MAX_DELAY) <$> fillDelay lotRaw bidRaw profitBps false ∧
    ∀ forceFill, fillDelay lotRaw bidRaw profitBps forceFill = .error .overflow →
      i128Max < lotRaw * BPS ∨ i128Max < bidRaw * (BPS + profitBps) := by
  rw [fillDelay_eq hlot hbid hbps, fillDelay_eq hlot hbid hbps]
  rcases rampDelay_answer hlot hbid hbps with ⟨d, hd, hleast⟩ | ⟨herror, hover⟩
  · rw [hd]
    refine ⟨fun d' hd' => ?_, rfl, fun forceFill h => ?_⟩
    · cases hd'
      exact hleast
    · rw [fillDelay_eq hlot hbid hbps, hd] at h
      cases h
  · rw [herror]
    exact ⟨fun d hd => (nomatch hd), rfl, fun _ _ => hover⟩

/-- A lot of 300 for a bid of 200, at 5%: 140 of the 200 steps. -/
theorem fillDelay_least_lot_ramp : fillDelay 300 200 500 false = .ok 140 ∧ LeastDelay 300 200 500 140 ∧
    fillDelay 300 200 500 true = .ok 140 :=
  have h := @fillDelay_least 300 200 500 (by decide) (by decide) (by decide)
  ⟨by decide, h.1 140 (by decide), by decide⟩

end BlendLiquidator
