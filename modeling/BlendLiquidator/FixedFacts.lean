/-
What the checked operations answer with, for a positive divisor: the exact
floor or ceiling, when an `i128` holds it (`mulFloor_eq`, `mulCeil_eq`).
Everything later needed of them is in `IntDiv` once this is known.
-/
import BlendLiquidator.Fixed
import BlendLiquidator.Results

namespace BlendLiquidator

open Results IntDiv

/-- An `i128` holds it. -/
def FitsI128 (x : Int) : Prop := i128Min ≤ x ∧ x ≤ i128Max

theorem narrow_ok_iff {x y : Int} : narrow x = .ok y ↔ x = y ∧ i128Min ≤ x ∧ x ≤ i128Max := by
  simp only [narrow, checked]
  split
  · next heq =>
    split at heq
    · next hr => cases heq; simp [hr]
    · cases heq
  · next heq =>
    split at heq
    · cases heq
    · next hr => simp [hr]

theorem narrow_ok {x y : Int} (h : narrow x = .ok y) : y = x := (narrow_ok_iff.1 h).1.symm

/-- A non-negative value below one that fits, fits. -/
theorem narrow_of_le {x y : Int} (h0 : 0 ≤ x) (hxy : x ≤ y) (hy : y ≤ i128Max) : narrow x = .ok x :=
  narrow_ok_iff.2 ⟨rfl, by simp only [i128Min]; omega, by omega⟩

/-- The exact quotient the rounding asks for. -/
def exactQuotient (r z : Int) : Rounding → Int
  | .floor => r / z
  | .ceil => ceilDiv r z

theorem divideWide_eq {r z : Int} {rounding : Rounding} (hz : 0 < z) :
    divideWide r z rounding = narrow (exactQuotient r z rounding) := by
  simp only [divideWide, if_neg (by omega : ¬z < 0)]
  cases rounding with
  | floor => rfl
  | ceil => simp only [exactQuotient, ceilDiv_eq hz]

/-- Dividing an `i128` by a positive integer stays within `i128`. -/
theorem ediv_in_range {r z : Int} (hz : 0 < z) (h1 : i128Min ≤ r) (h2 : r ≤ i128Max) :
    i128Min ≤ r / z ∧ r / z ≤ i128Max := by
  constructor
  · refine (Int.le_ediv_iff_mul_le hz).2 (le_trans ?_ h1)
    have : i128Min * z ≤ i128Min * 1 :=
      Int.mul_le_mul_of_nonpos_left (by simp [i128Min]) (by omega)
    omega
  · have h := Int.ediv_le_ediv hz h2
    exact h.trans (Int.ediv_le_self _ (by simp [i128Max]))

theorem divideNarrow_eq {r z : Int} {rounding : Rounding} (hz : 0 < z) (h1 : i128Min ≤ r)
    (h2 : r ≤ i128Max) : divideNarrow r z rounding = narrow (exactQuotient r z rounding) := by
  simp only [divideNarrow]
  split
  · exact divideWide_eq hz
  have hq : narrow (r / z) = .ok (r / z) := narrow_ok_iff.2 ⟨rfl, ediv_in_range hz h1 h2⟩
  simp only [normalise, if_neg (by omega : ¬z < 0), bind, Except.bind, hq]
  cases rounding with
  | floor => exact hq.symm
  | ceil =>
    simp only [exactQuotient, ceilDiv_eq hz]
    split
    · exact hq.symm
    · rfl

theorem mulDiv_eq {x y z : Int} {rounding : Rounding} (hz : 0 < z) :
    mulDiv x y z rounding = narrow (exactQuotient (x * y) z rounding) := by
  simp only [mulDiv, if_neg (by omega : ¬z = 0)]
  split
  · next heq =>
    simp only [checked] at heq
    split at heq
    · next hr => cases heq; exact divideNarrow_eq hz hr.1 hr.2
    · cases heq
  · exact divideWide_eq hz

theorem mulFloor_eq {x y z : Int} (hz : 0 < z) : mulFloor x y z = narrow (x * y / z) := mulDiv_eq hz

theorem mulCeil_eq {x y z : Int} (hz : 0 < z) : mulCeil x y z = narrow (ceilDiv (x * y) z) := mulDiv_eq hz

theorem divFloor_eq {x y z : Int} (hy : 0 < y) : divFloor x y z = narrow (x * z / y) := mulDiv_eq hy

theorem divCeil_eq {x y z : Int} (hy : 0 < y) : divCeil x y z = narrow (ceilDiv (x * z) y) := mulDiv_eq hy

/-- A ceiling of less is no more, and fits where the larger one does. -/
theorem mulCeil_mono {x x' y y' z v : Int} (hz : 0 < z) (hx : 0 ≤ x') (hy : 0 ≤ y') (hxx : x' ≤ x)
    (hyy : y' ≤ y) (h : mulCeil x y z = .ok v) :
    ∃ v', mulCeil x' y' z = .ok v' ∧ 0 ≤ v' ∧ v' ≤ v := by
  rw [mulCeil_eq hz] at h ⊢
  obtain ⟨rfl, -, hmax⟩ := narrow_ok_iff.1 h
  have hle : ceilDiv (x' * y') z ≤ ceilDiv (x * y) z :=
    ceilDiv_mono hz (Int.mul_le_mul hxx hyy hy (hx.trans hxx))
  have h0 : 0 ≤ ceilDiv (x' * y') z := ceilDiv_nonneg hz (Int.mul_nonneg hx hy)
  exact ⟨_, narrow_of_le h0 hle hmax, h0, hle⟩

/-- A floor of less is no more, and fits where the larger one does. -/
theorem mulFloor_mono {x x' y y' z v : Int} (hz : 0 < z) (hx : 0 ≤ x') (hy : 0 ≤ y') (hxx : x' ≤ x) (hyy : y' ≤ y)
    (h : mulFloor x y z = .ok v) : ∃ v', mulFloor x' y' z = .ok v' ∧ 0 ≤ v' ∧ v' ≤ v := by
  rw [mulFloor_eq hz] at h ⊢
  obtain ⟨rfl, -, hmax⟩ := narrow_ok_iff.1 h
  have hle : x' * y' / z ≤ x * y / z := Int.ediv_le_ediv hz (Int.mul_le_mul hxx hyy hy (hx.trans hxx))
  have h0 : 0 ≤ x' * y' / z := Int.ediv_nonneg (Int.mul_nonneg hx hy) hz.le
  exact ⟨_, narrow_of_le h0 hle hmax, h0, hle⟩

/-- A sum of less is no more, and fits where the larger one does. -/
theorem narrow_add_mono {a a' b b' v : Int} (ha : 0 ≤ a' ∧ a' ≤ a) (hb : 0 ≤ b') (hbb : b' ≤ b)
    (h : narrow (a + b) = .ok v) : ∃ v', narrow (a' + b') = .ok v' ∧ 0 ≤ v' ∧ v' ≤ v := by
  obtain ⟨rfl, -, hmax⟩ := narrow_ok_iff.1 h
  exact ⟨a' + b', narrow_of_le (by omega) (by omega) hmax, by omega, by omega⟩

theorem SCALAR_7_pos : 0 < SCALAR_7 := by decide
theorem SCALAR_12_pos : 0 < SCALAR_12 := by decide

end BlendLiquidator
