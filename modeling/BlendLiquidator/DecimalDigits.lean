/-
Numbers written in decimal digits: what a list of digits is worth, when two
lists of digits are the same, and which of those worth a number is shortest.

`Nat.toDigits` and `Nat.ofDigitChars` are the writer and the reader.
-/
import Mathlib.Algebra.Group.Nat.Defs
import Mathlib.Data.List.DropRight

namespace DecimalDigits

/-- The number a list of digits stands for. -/
def value (digits : List Char) : Nat := Nat.ofDigitChars 10 digits 0

/-- Only the characters `0` to `9`. -/
def Digits (digits : List Char) : Prop := ∀ c ∈ digits, c.isDigit = true

instance instDecidableDigits (digits : List Char) : Decidable (Digits digits) :=
  inferInstanceAs (Decidable (∀ c ∈ digits, c.isDigit = true))

section Values

variable {a b digits : List Char}

@[simp] theorem value_nil : value [] = 0 := rfl

theorem value_append (a b : List Char) : value (a ++ b) = value a * 10 ^ b.length + value b := by
  rw [value, Nat.ofDigitChars_append, Nat.ofDigitChars_eq_ofDigitChars_zero, Nat.mul_comm]
  rfl

theorem value_append_zeros (a : List Char) (n : Nat) : value (a ++ List.replicate n '0') = value a * 10 ^ n := by
  rw [value_append, List.length_replicate, value, value, Nat.ofDigitChars_replicate_zero, Nat.mul_zero, Nat.add_zero]

theorem value_zeros_append (n : Nat) (a : List Char) : value (List.replicate n '0' ++ a) = value a := by
  have hzeros := value_append_zeros [] n
  rw [List.nil_append, value_nil, Nat.zero_mul] at hzeros
  rw [value_append, hzeros, Nat.zero_mul, Nat.zero_add]

theorem value_concat (a : List Char) (c : Char) : value (a ++ [c]) = value a * 10 + (c.toNat - 48) := by
  rw [value_append]
  simp [value, Nat.ofDigitChars_cons]

theorem Digits.append (ha : Digits a) (hb : Digits b) : Digits (a ++ b) := by
  intro c hc
  rcases List.mem_append.1 hc with hc | hc
  · exact ha c hc
  · exact hb c hc

theorem Digits.left (h : Digits (a ++ b)) : Digits a := fun c hc => h c (List.mem_append_left _ hc)

theorem digits_zeros (n : Nat) : Digits (List.replicate n '0') := by
  intro c hc
  rw [(List.mem_replicate.1 hc).2]
  rfl

theorem digits_toDigits (n : Nat) : Digits (Nat.toDigits 10 n) := fun _ hc =>
  Nat.isDigit_of_mem_toDigits (by decide) (by decide) hc

theorem isDigit_iff_toNat {c : Char} : c.isDigit = true ↔ 48 ≤ c.toNat ∧ c.toNat ≤ 57 := by
  simp only [Char.isDigit, ge_iff_le, Bool.and_eq_true, decide_eq_true_eq]
  exact Iff.rfl

theorem value_lt (h : Digits digits) : value digits < 10 ^ digits.length := by
  induction digits using List.reverseRecOn with
  | nil => exact Nat.one_pos
  | append_singleton digits c ih =>
    have hlt := ih h.left
    have hc := isDigit_iff_toNat.1 (h c (by simp))
    rw [value_concat, List.length_append, List.length_singleton, Nat.pow_succ]
    omega

/-- Lists of one length stand for different numbers. -/
theorem eq_of_value_eq (ha : Digits a) (hb : Digits b) (hlength : a.length = b.length) (h : value a = value b) :
    a = b := by
  induction a using List.reverseRecOn generalizing b with
  | nil => rw [List.length_eq_zero_iff.1 hlength.symm]
  | append_singleton a c ih =>
    rcases b.eq_nil_or_concat' with rfl | ⟨b, d, rfl⟩
    · simp at hlength
    have hc := isDigit_iff_toNat.1 (ha c (by simp))
    have hd := isDigit_iff_toNat.1 (hb d (by simp))
    rw [value_concat, value_concat] at h
    have hlast : c = d := Char.toNat_inj.1 (by omega)
    rw [hlast, ih ha.left hb.left (by simpa using hlength) (by omega)]

/-! ## The shortest -/

/-- The digits `toDigits` writes are the fewest, and no others are as few. -/
theorem toDigits_shortest (hne : digits ≠ []) (h : Digits digits) :
    (Nat.toDigits 10 (value digits)).length ≤ digits.length ∧
      ((Nat.toDigits 10 (value digits)).length = digits.length → Nat.toDigits 10 (value digits) = digits) := by
  refine ⟨(Nat.length_toDigits_le_iff (by decide) (List.length_pos_iff.2 hne)).2 (value_lt h), fun hlength => ?_⟩
  exact eq_of_value_eq (digits_toDigits _) h hlength Nat.ofDigitChars_ten_toDigits

/-- A list of digits without the zeros at its end. -/
def trimZeros (digits : List Char) : List Char := digits.rdropWhile (· == '0')

theorem trimZeros_append_zeros (a : List Char) : ∀ n, trimZeros (a ++ List.replicate n '0') = trimZeros a
  | 0 => by rw [List.replicate_zero, List.append_nil]
  | n + 1 => by
    rw [List.replicate_succ', ← List.append_assoc, trimZeros, List.rdropWhile_concat_pos _ _ _ rfl]
    exact trimZeros_append_zeros a n

theorem trimZeros_initial (digits : List Char) : trimZeros digits <+: digits := List.rdropWhile_prefix _ _

/-- What was trimmed are zeros. -/
theorem trimZeros_spec (digits : List Char) :
    ∃ n, digits = trimZeros digits ++ List.replicate n '0' := by
  induction digits using List.reverseRecOn with
  | nil => exact ⟨0, rfl⟩
  | append_singleton digits c ih =>
    by_cases hc : c = '0'
    · obtain ⟨n, hn⟩ := ih
      refine ⟨n + 1, ?_⟩
      rw [trimZeros, List.rdropWhile_concat_pos _ _ _ (by simp [hc]), List.replicate_succ', ← List.append_assoc, hc]
      exact congrArg (· ++ ['0']) hn
    · refine ⟨0, ?_⟩
      rw [trimZeros, List.rdropWhile_concat_neg _ _ _ (by simp [hc]), List.replicate_zero, List.append_nil]

end Values

end DecimalDigits
