/-
Hexadecimal digits, and the bytes of a text written in them: a text whose
bytes are ASCII is its bytes read one by one, and so is one whose characters
are.
-/
import Mathlib.Tactic.IntervalCases

namespace HexDigits

/-! ## Digits -/

/-- The value of a digit, of either case. -/
def toDigit (c : Char) : Option Nat :=
  if '0' ≤ c ∧ c ≤ '9' then some (c.toNat - 48)
  else if 'a' ≤ c ∧ c ≤ 'f' then some (c.toNat - 87)
  else if 'A' ≤ c ∧ c ≤ 'F' then some (c.toNat - 55)
  else none

/-- The characters `0` to `9`, `a` to `f` and `A` to `F`. -/
def IsDigit (c : Char) : Prop := '0' ≤ c ∧ c ≤ '9' ∨ 'a' ≤ c ∧ c ≤ 'f' ∨ 'A' ≤ c ∧ c ≤ 'F'

theorem isDigit_iff {c : Char} : IsDigit c ↔ ∃ d, toDigit c = some d := by
  unfold IsDigit toDigit
  split
  · simp_all
  · split
    · simp_all
    · split <;> simp_all

theorem toDigit_digitChar {d : Nat} (h : d < 16) : toDigit d.digitChar = some d := by
  interval_cases d <;> rfl

theorem char_le_iff {a b : Char} : a ≤ b ↔ a.toNat ≤ b.toNat := Iff.rfl

theorem lt_of_isDigit {c : Char} (h : IsDigit c) : c.toNat < 128 := by
  unfold IsDigit at h
  simp only [char_le_iff] at h
  have h9 : '9'.toNat = 57 := rfl
  have hf : 'f'.toNat = 102 := rfl
  have hF : 'F'.toNat = 70 := rfl
  omega

/-- A digit's value is written as the digit itself, in lower case. -/
theorem digitChar_of_toDigit {c : Char} {d : Nat} (h : toDigit c = some d) : d < 16 ∧ d.digitChar = c.toLower := by
  have hall : ∀ n < 128, ∀ d ∈ toDigit (Char.ofNat n), d < 16 ∧ d.digitChar = (Char.ofNat n).toLower := by
    decide +kernel
  have hlt := lt_of_isDigit (isDigit_iff.2 ⟨d, h⟩)
  rw [← Char.ofNat_toNat c] at h ⊢
  exact hall c.toNat hlt d h

/-! ## Bytes -/

def asBytes (text : String) : List UInt8 := text.toUTF8.data.toList

theorem asBytes_eq (text : String) : asBytes text = text.toList.flatMap String.utf8EncodeChar := by
  rw [asBytes, String.toUTF8_eq_toByteArray, ← String.utf8Encode_toList, List.utf8Encode]
  simp

theorem utf8EncodeChar_of_lt {c : Char} (h : c.toNat < 128) : (String.utf8EncodeChar c).map Char.ofUInt8 = [c] := by
  have hle : c.val.toNat ≤ 127 := Nat.le_of_lt_succ h
  simp only [String.utf8EncodeChar, if_pos hle, List.map_cons, List.map_nil, List.cons.injEq, and_true]
  apply Char.ext
  rw [← UInt32.toNat_inj]
  show (UInt8.ofNat c.val.toNat).toUInt32.toNat = c.val.toNat
  rw [UInt8.toNat_toUInt32, UInt8.toNat_ofNat']
  omega

theorem lt_of_utf8EncodeChar {c : Char} (h : ∀ b ∈ String.utf8EncodeChar c, b.toNat < 128) : c.toNat < 128 := by
  by_contra hge
  have hle : ¬c.val.toNat ≤ 127 := fun hle => hge (Nat.lt_succ_of_le hle)
  simp only [String.utf8EncodeChar, if_neg hle] at h
  split at h
  · have hfirst := h _ List.mem_cons_self
    rw [UInt8.toNat_ofNat'] at hfirst
    omega
  · split at h
    · have hfirst := h _ List.mem_cons_self
      rw [UInt8.toNat_ofNat'] at hfirst
      omega
    · have hfirst := h _ List.mem_cons_self
      rw [UInt8.toNat_ofNat'] at hfirst
      omega

theorem toNat_ofUInt8 (b : UInt8) : (Char.ofUInt8 b).toNat = b.toNat := UInt8.toNat_toUInt32 b

/-- A text whose bytes are all ASCII is those bytes. -/
theorem map_asBytes_of_bytes {text : String} (h : ∀ b ∈ asBytes text, b.toNat < 128) :
    (asBytes text).map Char.ofUInt8 = text.toList := by
  rw [asBytes_eq] at h ⊢
  generalize text.toList = chars at h ⊢
  induction chars with
  | nil => rfl
  | cons c chars ih =>
    rw [List.flatMap_cons] at h ⊢
    have hc : c.toNat < 128 := lt_of_utf8EncodeChar fun b hb => h b (List.mem_append_left _ hb)
    rw [List.map_append, utf8EncodeChar_of_lt hc, ih fun b hb => h b (List.mem_append_right _ hb)]
    rfl

/-- And one whose characters are. -/
theorem map_asBytes_of_chars {text : String} (h : ∀ c ∈ text.toList, c.toNat < 128) :
    (asBytes text).map Char.ofUInt8 = text.toList := by
  rw [asBytes_eq]
  generalize text.toList = chars at h ⊢
  induction chars with
  | nil => rfl
  | cons c chars ih =>
    obtain ⟨hc, hrest⟩ := List.forall_mem_cons.1 h
    rw [List.flatMap_cons, List.map_append, utf8EncodeChar_of_lt hc, ih hrest]
    rfl

theorem utf8EncodeChar_ofUInt8 {b : UInt8} (h : b.toNat < 128) : String.utf8EncodeChar (.ofUInt8 b) = [b] := by
  have hval : (Char.ofUInt8 b).val.toNat = b.toNat := UInt8.toNat_toUInt32 b
  have hle : b.toNat ≤ 127 := by omega
  simp only [String.utf8EncodeChar, hval, if_pos hle]
  simp

theorem isValidUTF8_of_ascii {l : List UInt8} (h : ∀ b ∈ l, b.toNat < 128) : l.toByteArray.IsValidUTF8 := by
  refine ⟨l.map .ofUInt8, ?_⟩
  rw [List.utf8Encode, List.flatMap_map]
  congr 1
  induction l with
  | nil => rfl
  | cons b l ih =>
    obtain ⟨hb, hl⟩ := List.forall_mem_cons.1 h
    rw [List.flatMap_cons, utf8EncodeChar_ofUInt8 hb, ← ih hl]
    rfl

end HexDigits
