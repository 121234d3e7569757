/-
Integer division rounded up, and the adjunctions the two roundings satisfy.

`a / d` on `Int` is already the floor for a positive divisor, and core has
its adjunction (`Int.le_ediv_iff_mul_le`). The ceiling is its mirror image,
`-(-a / d)`. Everything later developments need of either rounding follows
from the two adjunctions: both are monotone, and going up one way and down
the other never overshoots.
-/
import Mathlib.Algebra.Order.Ring.Int

namespace IntDiv

/-- `⌈a / d⌉` for a positive `d`. -/
def ceilDiv (a d : Int) : Int := -(-a / d)

theorem ceilDiv_le_iff {a d c : Int} (hd : 0 < d) : ceilDiv a d ≤ c ↔ a ≤ c * d := by
  unfold ceilDiv
  have h := Int.le_ediv_iff_mul_le (a := -c) (b := -a) hd
  rw [Int.neg_mul] at h
  omega

theorem le_ceilDiv_mul {a d : Int} (hd : 0 < d) : a ≤ ceilDiv a d * d :=
  (ceilDiv_le_iff hd).1 (Int.le_refl _)

theorem ediv_mul_le' {a d : Int} (hd : 0 < d) : a / d * d ≤ a :=
  (Int.le_ediv_iff_mul_le hd).1 (Int.le_refl _)

theorem ediv_le_ceilDiv {a d : Int} (hd : 0 < d) : a / d ≤ ceilDiv a d :=
  le_of_mul_le_mul_right ((ediv_mul_le' hd).trans (le_ceilDiv_mul hd)) hd

theorem ceilDiv_mono {a b d : Int} (hd : 0 < d) (h : a ≤ b) : ceilDiv a d ≤ ceilDiv b d :=
  (ceilDiv_le_iff hd).2 (h.trans (le_ceilDiv_mul hd))

theorem ceilDiv_nonneg {a d : Int} (hd : 0 < d) (ha : 0 ≤ a) : 0 ≤ ceilDiv a d := by
  by_contra h
  have h1 : ceilDiv a d ≤ -1 := by omega
  have h2 := (ceilDiv_le_iff hd).1 h1
  omega

theorem ceilDiv_pos {a d : Int} (hd : 0 < d) (ha : 0 < a) : 0 < ceilDiv a d := by
  by_contra h
  have h1 : ceilDiv a d ≤ 0 := by omega
  have h2 := (ceilDiv_le_iff hd).1 h1
  omega

/-- Floors of parts come to no more than the floor of the whole. -/
theorem add_ediv_le {a b d : Int} (hd : 0 < d) : a / d + b / d ≤ (a + b) / d := by
  rw [Int.le_ediv_iff_mul_le hd, Int.add_mul]
  exact Int.add_le_add (ediv_mul_le' hd) (ediv_mul_le' hd)

/-- Ceilings of parts come to no less than the ceiling of the whole. -/
theorem ceilDiv_add_le {a b d : Int} (hd : 0 < d) : ceilDiv (a + b) d ≤ ceilDiv a d + ceilDiv b d := by
  rw [ceilDiv_le_iff hd, Int.add_mul]
  exact Int.add_le_add (le_ceilDiv_mul hd) (le_ceilDiv_mul hd)

/-- The remainder decides whether the ceiling is one above the floor. -/
theorem ceilDiv_eq {a d : Int} (hd : 0 < d) :
    ceilDiv a d = if a % d = 0 then a / d else a / d + 1 := by
  have hmod := Int.emod_add_mul_ediv a d
  have h0 := Int.emod_nonneg a hd.ne'
  have h1 := Int.emod_lt_of_pos a hd
  have hc : d * (a / d) = a / d * d := Int.mul_comm _ _
  have key : ∀ c, ceilDiv a d ≤ c ↔ a ≤ c * d := fun c => ceilDiv_le_iff hd
  split
  · next hz =>
    refine le_antisymm ((key _).2 (by omega)) (ediv_le_ceilDiv hd)
  · next hz =>
    refine le_antisymm ((key _).2 (by rw [Int.add_mul, Int.one_mul]; omega)) ?_
    by_contra hlt
    have := (key (a / d)).1 (by omega)
    omega

end IntDiv
