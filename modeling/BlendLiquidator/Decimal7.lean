/-
Decimal knobs in 7-decimal fixed point: the parser of `config.rs` and the
renderer of `tracker.rs`.

The parser appends the fraction, padded to seven digits, to the whole part
and leaves the overflow to `i128`'s own parser, so what it answers is the
number of one list of digits (`scaled`). Against the rationals that is the
denoted number times `10^7`, never rounded (`scaled_eq`).

The renderer writes the whole part and seven digits of fraction without the
zeros they end in; no other text parsed to the same value is as short
(`render_shortest`).
-/
import BlendLiquidator.DecimalDigits
import BlendLiquidator.FixedExact
import BlendLiquidator.HexDigits
import Mathlib.Tactic.FieldSimp
import Mathlib.Tactic.Ring

namespace BlendLiquidator

open HexDigits DecimalDigits

/-! ## The standard library -/

/-- `split_once`. -/
def splitOnce (text : String) (sep : Char) : Option (String × String) :=
  match text.toList.dropWhile (· != sep) with
  | [] => none
  | _ :: after => some (.ofList (text.toList.takeWhile (· != sep)), .ofList after)

/-- `u8::is_ascii_digit`. -/
def isAsciiDigit (byte : UInt8) : Bool := decide (48 ≤ byte.toNat ∧ byte.toNat ≤ 57)

/-- The loop of `i128`'s parser over the digits, from the most significant:
every step is checked, and `none` is any of its errors. -/
def i128Digits (sign : Int) : Int → List UInt8 → Option Int
  | result, [] => some result
  | result, byte :: digits =>
    if isAsciiDigit byte then do
      let tens ← checked (result * 10)
      let result ← checked (tens + sign * (byte.toNat - 48))
      i128Digits sign result digits
    else
      none

/-- `str::parse::<i128>`: a sign is skipped, and a lone one is an error. -/
def parseI128 (src : String) : Option Int :=
  match asBytes src with
  | [] => none
  | [byte] => if byte = 43 ∨ byte = 45 then none else i128Digits 1 0 [byte]
  | byte :: digits =>
    if byte = 43 then i128Digits 1 0 digits
    else if byte = 45 then i128Digits (-1) 0 digits
    else i128Digits 1 0 (byte :: digits)

/-- `{n:0width}`: the zeros go after the sign. -/
def zeroPadded (width : Nat) (n : Int) : String :=
  if n < 0 then .ofList ('-' :: (Nat.repr n.natAbs).toList.leftpad (width - 1) '0')
  else .ofList ((Nat.repr n.natAbs).toList.leftpad width '0')

/-! ## The knob -/

/-- A decimal knob in 7-decimal fixed point. -/
structure Decimal7 where
  get : Int
  deriving Repr, DecidableEq

namespace Decimal7

/-- What `from_str` makes of the two sides of the point. -/
def fromParts (text whole fraction : String) : Except String Decimal7 :=
  if (asBytes whole).isEmpty ∨ !(asBytes whole).all isAsciiDigit then
    .error ("`" ++ text ++ "` is not a non-negative decimal number")
  else if !(asBytes fraction).all isAsciiDigit then
    .error ("`" ++ text ++ "` is not a non-negative decimal number")
  else if (asBytes fraction).length > 7 then
    .error ("`" ++ text ++ "` has more than 7 decimal places")
  else
    match parseI128 (whole ++ .ofList (fraction.toList.rightpad 7 '0')) with
    | some value => .ok ⟨value⟩
    | none => .error ("`" ++ text ++ "` does not fit a 128-bit fixed-point value")

def fromStr (text : String) : Except String Decimal7 :=
  match splitOnce text '.' with
  | some (whole, fraction) => fromParts text whole fraction
  | none => fromParts text text ""

end Decimal7

/-- A 7-decimal fixed-point value as decimal text. `i128` division and its
remainder truncate. -/
def renderDecimal7 (value : Int) : String :=
  let whole := value.tdiv SCALAR_7
  let fraction := value.tmod SCALAR_7
  if fraction = 0 then
    toString whole
  else
    toString whole ++ "." ++ .ofList (trimZeros (zeroPadded 7 fraction).toList)

/-! ## What is accepted -/

/-- The texts of a decimal: digits, and after a point up to seven more. -/
structure Decimal7.Written (text : String) (whole fraction : List Char) : Prop where
  whole_ne : whole ≠ []
  whole_digits : Digits whole
  fraction_digits : Digits fraction
  places : fraction.length ≤ 7
  text : text.toList = whole ∧ fraction = [] ∨ text.toList = whole ++ '.' :: fraction

/-- The number such a text denotes. -/
def denoted (whole fraction : List Char) : ℚ := value whole + value fraction / 10 ^ fraction.length

/-- The same in 7-decimal fixed point: the digits with the point moved. -/
def scaled (whole fraction : List Char) : Nat := value (whole ++ fraction.rightpad 7 '0')

theorem length_rightpad {fraction : List Char} (h : fraction.length ≤ 7) : (fraction.rightpad 7 '0').length = 7 := by
  simp only [List.rightpad, List.length_append, List.length_replicate]
  omega

theorem digits_rightpad {fraction : List Char} (h : Digits fraction) : Digits (fraction.rightpad 7 '0') :=
  h.append (digits_zeros _)

theorem value_rightpad (fraction : List Char) :
    value (fraction.rightpad 7 '0') = value fraction * 10 ^ (7 - fraction.length) := value_append_zeros _ _

theorem scaled_parts {whole fraction : List Char} (h : fraction.length ≤ 7) :
    scaled whole fraction = value whole * 10 ^ 7 + value fraction * 10 ^ (7 - fraction.length) := by
  rw [scaled, value_append, length_rightpad h, value_rightpad]

/-- **Never rounded.** -/
theorem scaled_eq {whole fraction : List Char} (h : fraction.length ≤ 7) :
    (scaled whole fraction : ℚ) = denoted whole fraction * 10 ^ 7 := by
  have hsplit : (10 : ℚ) ^ 7 = 10 ^ (7 - fraction.length) * 10 ^ fraction.length := by
    rw [← pow_add, Nat.sub_add_cancel h]
  have hpow : (10 : ℚ) ^ fraction.length ≠ 0 := pow_ne_zero _ (by norm_num)
  rw [scaled_parts h, denoted, add_mul]
  push_cast
  congr 1
  rw [hsplit]
  field_simp

section Parsing

theorem isAsciiDigit_iff {byte : UInt8} : isAsciiDigit byte = true ↔ (Char.ofUInt8 byte).isDigit = true := by
  rw [isAsciiDigit, decide_eq_true_eq, isDigit_iff_toNat, toNat_ofUInt8]

/-- The bytes are digits just when the characters are, and then they are the
characters. -/
theorem all_isAsciiDigit_iff {text : String} :
    (asBytes text).all isAsciiDigit = true ↔ Digits text.toList ∧ (asBytes text).map Char.ofUInt8 = text.toList := by
  constructor
  · intro h
    have hdigit : ∀ byte ∈ asBytes text, (Char.ofUInt8 byte).isDigit = true := fun byte hbyte =>
      isAsciiDigit_iff.1 (List.all_eq_true.1 h byte hbyte)
    have hchars : (asBytes text).map Char.ofUInt8 = text.toList := by
      refine map_asBytes_of_bytes fun byte hbyte => ?_
      have hrange := isDigit_iff_toNat.1 (hdigit byte hbyte)
      rw [toNat_ofUInt8] at hrange
      omega
    refine ⟨fun c hc => ?_, hchars⟩
    rw [← hchars] at hc
    obtain ⟨byte, hbyte, rfl⟩ := List.mem_map.1 hc
    exact hdigit byte hbyte
  · rintro ⟨hdigits, hchars⟩
    refine List.all_eq_true.2 fun byte hbyte => isAsciiDigit_iff.2 (hdigits _ ?_)
    rw [← hchars]
    exact List.mem_map.2 ⟨byte, hbyte, rfl⟩

theorem Digits.asBytes {text : String} (h : Digits text.toList) : (asBytes text).map Char.ofUInt8 = text.toList :=
  map_asBytes_of_chars fun c hc => by
    have hrange := isDigit_iff_toNat.1 (h c hc)
    omega

/-- The loop answers with the number of the digits, if it fits: the partial
results only grow. -/
theorem i128Digits_iff {digits : List UInt8} (hall : digits.all isAsciiDigit = true) {n : Nat} {v : Int}
    (hn : (n : Int) ≤ i128Max) :
    i128Digits 1 n digits = some v ↔
      v = Nat.ofDigitChars 10 (digits.map Char.ofUInt8) n ∧ v ≤ i128Max := by
  induction digits generalizing n with
  | nil =>
    simp only [i128Digits, List.map_nil, Nat.ofDigitChars_nil, Option.some.injEq]
    constructor
    · rintro rfl
      exact ⟨rfl, hn⟩
    · rintro ⟨rfl, -⟩
      rfl
  | cons byte digits ih =>
    rw [List.all_cons, Bool.and_eq_true] at hall
    have hrange := isDigit_iff_toNat.1 (isAsciiDigit_iff.1 hall.1)
    rw [toNat_ofUInt8] at hrange
    have hmin : i128Min ≤ 0 := by decide
    have hnext : (n : Int) * 10 + 1 * ((byte.toNat : Int) - 48) = ((10 * n + (byte.toNat - 48) : Nat) : Int) := by omega
    have hcons : Nat.ofDigitChars 10 ((byte :: digits).map Char.ofUInt8) n =
        Nat.ofDigitChars 10 (digits.map Char.ofUInt8) (10 * n + (byte.toNat - 48)) := by
      rw [List.map_cons, Nat.ofDigitChars_cons, toNat_ofUInt8]
      rfl
    rw [hcons]
    simp only [i128Digits, hall.1, if_true, bind, Option.bind_eq_some_iff, checked_eq_some_iff, FitsI128]
    constructor
    · rintro ⟨_, ⟨rfl, -⟩, _, ⟨rfl, -, hfits⟩, hrest⟩
      rw [hnext] at hfits hrest
      exact (ih hall.2 hfits).1 hrest
    · rintro ⟨hv, hfits⟩
      have hgrows : 10 * n + (byte.toNat - 48) ≤
          Nat.ofDigitChars 10 (digits.map Char.ofUInt8) (10 * n + (byte.toNat - 48)) := by
        rw [Nat.ofDigitChars_eq_ofDigitChars_zero]
        exact (Nat.le_mul_of_pos_left _ (Nat.pow_pos (by decide))).trans (Nat.le_add_right _ _)
      refine ⟨_, ⟨rfl, by omega, by omega⟩, _, ⟨rfl, by omega, by omega⟩, ?_⟩
      rw [hnext]
      exact (ih hall.2 (by omega)).2 ⟨hv, hfits⟩

theorem parseI128_iff {src : String} {v : Int} (hne : src.toList ≠ []) (h : Digits src.toList) :
    parseI128 src = some v ↔ v = value src.toList ∧ v ≤ i128Max := by
  have hchars := Digits.asBytes h
  have hall := all_isAsciiDigit_iff.2 ⟨h, hchars⟩
  have hloop : parseI128 src = i128Digits 1 (0 : Nat) (asBytes src) := by
    rw [parseI128]
    cases hbytes : asBytes src with
    | nil =>
      rw [hbytes, List.map_nil] at hchars
      exact absurd hchars.symm hne
    | cons byte digits =>
      rw [hbytes, List.all_cons, Bool.and_eq_true] at hall
      have hrange := hall.1
      rw [isAsciiDigit, decide_eq_true_eq] at hrange
      have hplus : byte ≠ 43 := by
        rintro rfl
        simp at hrange
      have hminus : byte ≠ 45 := by
        rintro rfl
        simp at hrange
      cases digits <;> simp [hplus, hminus]
  rw [hloop, i128Digits_iff hall (by decide), hchars]
  exact Iff.rfl

theorem not_all_isAsciiDigit {text : String} : (!(asBytes text).all isAsciiDigit) = true ↔ ¬Digits text.toList := by
  rw [Bool.not_eq_true', Bool.eq_false_iff, ne_eq, all_isAsciiDigit_iff]
  exact not_congr ⟨And.left, fun h => ⟨h, Digits.asBytes h⟩⟩

theorem isEmpty_asBytes {text : String} : (asBytes text).isEmpty = true ↔ text.toList = [] := by
  rw [List.isEmpty_iff, asBytes_eq]
  cases text.toList with
  | nil => simp
  | cons c rest => simp [String.utf8EncodeChar_ne_nil]

theorem Decimal7.fromParts_ok_iff {text whole fraction : String} {knob : Decimal7} :
    Decimal7.fromParts text whole fraction = .ok knob ↔
      whole.toList ≠ [] ∧ Digits whole.toList ∧ Digits fraction.toList ∧ fraction.toList.length ≤ 7 ∧
        knob.get = scaled whole.toList fraction.toList ∧ knob.get ≤ i128Max := by
  unfold fromParts
  simp only [isEmpty_asBytes, not_all_isAsciiDigit]
  by_cases hwhole : whole.toList = [] ∨ ¬Digits whole.toList
  · rw [if_pos hwhole]
    constructor
    · intro h
      cases h
    · rintro ⟨hne, hdigits, -⟩
      rcases hwhole with hempty | hother
      · exact absurd hempty hne
      · exact absurd hdigits hother
  rw [if_neg hwhole]
  obtain ⟨hne, hwhole⟩ := not_or.1 hwhole
  have hwhole := not_not.1 hwhole
  by_cases hfraction : Digits fraction.toList
  swap
  · simp [hfraction]
  have hlength : (asBytes fraction).length = fraction.toList.length := by
    rw [← Digits.asBytes hfraction, List.length_map]
  rw [if_neg (not_not.2 hfraction), hlength]
  by_cases hplaces : fraction.toList.length ≤ 7
  swap
  · rw [if_pos (by omega)]
    simp [hplaces]
  rw [if_neg (by omega)]
  have hparse := @parseI128_iff (whole ++ .ofList (fraction.toList.rightpad 7 '0'))
  rw [String.toList_append, String.toList_ofList] at hparse
  have hread : ∀ v, parseI128 (whole ++ .ofList (fraction.toList.rightpad 7 '0')) = some v ↔
      v = scaled whole.toList fraction.toList ∧ v ≤ i128Max := fun v =>
    hparse (by simp [hne]) (hwhole.append (digits_rightpad hfraction))
  cases hvalue : parseI128 (whole ++ .ofList (fraction.toList.rightpad 7 '0')) with
  | none =>
    simp only [reduceCtorEq, false_iff]
    rintro ⟨-, -, -, -, hknob⟩
    rw [(hread _).2 hknob] at hvalue
    cases hvalue
  | some v =>
    obtain ⟨hv, hfits⟩ := (hread v).1 hvalue
    simp only [Except.ok.injEq]
    constructor
    · rintro rfl
      exact ⟨hne, hwhole, hfraction, hplaces, hv, hfits⟩
    · rintro ⟨-, -, -, -, hknob, -⟩
      cases knob
      rw [hv, ← hknob]

/-- A point no digit comes after is one all the same. -/
theorem splitOnce_of_append {text : String} {sep : Char} {before after : List Char}
    (h : text.toList = before ++ sep :: after) (hsep : sep ∉ before) :
    splitOnce text sep = some (.ofList before, .ofList after) := by
  have hbefore : ∀ c ∈ before, (c != sep) = true := fun c hc => by
    rw [bne_iff_ne]
    rintro rfl
    exact hsep hc
  rw [splitOnce, h, List.dropWhile_append_of_pos hbefore, List.takeWhile_append_of_pos hbefore,
    List.dropWhile_cons_of_neg (by simp), List.takeWhile_cons_of_neg (by simp), List.append_nil]

theorem splitOnce_of_not_mem {text : String} {sep : Char} (h : sep ∉ text.toList) : splitOnce text sep = none := by
  have hall : text.toList.dropWhile (· != sep) = [] := by
    rw [List.dropWhile_eq_nil_iff]
    intro c hc
    rw [bne_iff_ne]
    rintro rfl
    exact h hc
  rw [splitOnce, hall]

theorem point_not_mem {digits : List Char} (h : Digits digits) : '.' ∉ digits := fun hmem =>
  absurd (h _ hmem) (by decide)

/-- What the parser accepts, and its number. -/
theorem Decimal7.fromStr_ok_iff {text : String} {knob : Decimal7} :
    Decimal7.fromStr text = .ok knob ↔
      ∃ whole fraction, Decimal7.Written text whole fraction ∧ knob.get = scaled whole fraction ∧ knob.get ≤ i128Max := by
  constructor
  · intro h
    by_cases hpoint : '.' ∈ text.toList
    · obtain ⟨before, after, htext, hbefore⟩ := List.eq_append_cons_of_mem hpoint
      rw [fromStr, splitOnce_of_append htext hbefore] at h
      obtain ⟨hne, hwhole, hfraction, hplaces, hknob⟩ := fromParts_ok_iff.1 h
      simp only [String.toList_ofList] at hne hwhole hfraction hplaces hknob
      exact ⟨before, after, ⟨hne, hwhole, hfraction, hplaces, .inr htext⟩, hknob⟩
    · rw [fromStr, splitOnce_of_not_mem hpoint] at h
      obtain ⟨hne, hwhole, hfraction, hplaces, hknob⟩ := fromParts_ok_iff.1 h
      exact ⟨text.toList, [], ⟨hne, hwhole, hfraction, hplaces, .inl ⟨rfl, rfl⟩⟩, hknob⟩
  · rintro ⟨whole, fraction, hwritten, hknob⟩
    rcases hwritten.text with ⟨htext, rfl⟩ | htext
    · have hwhole := hwritten.whole_digits
      rw [← htext] at hwhole
      rw [fromStr, splitOnce_of_not_mem (point_not_mem hwhole)]
      refine fromParts_ok_iff.2 ?_
      rw [htext]
      exact ⟨hwritten.whole_ne, hwritten.whole_digits, hwritten.fraction_digits, hwritten.places, hknob⟩
    · rw [fromStr, splitOnce_of_append htext (point_not_mem hwritten.whole_digits)]
      refine fromParts_ok_iff.2 ?_
      rw [String.toList_ofList, String.toList_ofList]
      exact ⟨hwritten.whole_ne, hwritten.whole_digits, hwritten.fraction_digits, hwritten.places, hknob⟩

end Parsing

/-! ## What is rendered -/

section Rendering

variable {text : String} {whole fraction : List Char} {n : Nat}

/-- The seven digits of the fraction. -/
def fractionDigits (n : Nat) : List Char := (Nat.toDigits 10 (n % 10 ^ 7)).leftpad 7 '0'

theorem length_fractionDigits (n : Nat) : (fractionDigits n).length = 7 := by
  have hle : (Nat.toDigits 10 (n % 10 ^ 7)).length ≤ 7 :=
    (Nat.length_toDigits_le_iff (by decide) (by decide)).2 (Nat.mod_lt n (by decide))
  simp only [fractionDigits, List.leftpad, List.length_append, List.length_replicate]
  omega

theorem digits_fractionDigits (n : Nat) : Digits (fractionDigits n) := (digits_zeros _).append (digits_toDigits _)

theorem value_fractionDigits (n : Nat) : value (fractionDigits n) = n % 10 ^ 7 :=
  (value_zeros_append _ _).trans Nat.ofDigitChars_ten_toDigits

theorem rightpad_trimZeros {digits : List Char} (h : digits.length = 7) : (trimZeros digits).rightpad 7 '0' = digits := by
  obtain ⟨zeros, hzeros⟩ := trimZeros_spec digits
  have hlength := congrArg List.length hzeros
  rw [List.length_append, List.length_replicate, h] at hlength
  rw [List.rightpad, show 7 - (trimZeros digits).length = zeros by omega]
  exact hzeros.symm

theorem trimZeros_fractionDigits_eq_nil_iff (n : Nat) : trimZeros (fractionDigits n) = [] ↔ n % 10 ^ 7 = 0 := by
  constructor
  · intro hnil
    rw [← value_fractionDigits, ← rightpad_trimZeros (length_fractionDigits n), hnil]
    rfl
  · intro hzero
    rw [fractionDigits, hzero]
    rfl

theorem toList_renderDecimal7 (n : Nat) :
    (renderDecimal7 n).toList = Nat.toDigits 10 (n / 10 ^ 7) ++
      if n % 10 ^ 7 = 0 then [] else '.' :: trimZeros (fractionDigits n) := by
  have hscale : SCALAR_7 = ((10 ^ 7 : Nat) : Int) := by decide
  have hwhole : (n : Int).tdiv SCALAR_7 = ((n / 10 ^ 7 : Nat) : Int) := by rw [hscale, Int.ofNat_tdiv]
  have hfraction : (n : Int).tmod SCALAR_7 = ((n % 10 ^ 7 : Nat) : Int) := by rw [hscale, Int.ofNat_tmod]
  have hstring : ∀ k : Nat, (toString (k : Int)).toList = Nat.toDigits 10 k := fun k => Nat.toList_repr
  simp only [renderDecimal7, hwhole, hfraction]
  by_cases hzero : n % 10 ^ 7 = 0
  · rw [if_pos (by rw [hzero]; rfl), if_pos hzero, hstring, List.append_nil]
  · rw [if_neg (by omega), if_neg hzero, zeroPadded, if_neg (by omega), String.toList_append, String.toList_append, hstring,
      String.toList_ofList, String.toList_ofList, String.toList_ofList, Int.natAbs_natCast, Nat.toList_repr,
      List.append_assoc]
    rfl

theorem written_render (n : Nat) :
    Decimal7.Written (renderDecimal7 n) (Nat.toDigits 10 (n / 10 ^ 7)) (trimZeros (fractionDigits n)) where
  whole_ne := Nat.toDigits_ne_nil
  whole_digits := digits_toDigits _
  fraction_digits := fun c hc => digits_fractionDigits n c ((trimZeros_initial _).subset hc)
  places := by
    rw [← length_fractionDigits n]
    exact (trimZeros_initial _).length_le
  text := by
    rw [toList_renderDecimal7]
    by_cases hzero : n % 10 ^ 7 = 0
    · rw [if_pos hzero, List.append_nil]
      exact .inl ⟨rfl, (trimZeros_fractionDigits_eq_nil_iff n).2 hzero⟩
    · rw [if_neg hzero]
      exact .inr rfl

theorem scaled_render (n : Nat) : scaled (Nat.toDigits 10 (n / 10 ^ 7)) (trimZeros (fractionDigits n)) = n := by
  rw [scaled, rightpad_trimZeros (length_fractionDigits n), value_append, length_fractionDigits, value_fractionDigits,
    value, Nat.ofDigitChars_ten_toDigits]
  exact Nat.div_add_mod' n (10 ^ 7)

/-- The two parts of a text are those of its number. -/
theorem Decimal7.Written.parts (h : Decimal7.Written text whole fraction) :
    value whole = scaled whole fraction / 10 ^ 7 ∧
      trimZeros fraction = trimZeros (fractionDigits (scaled whole fraction)) := by
  have hdigits := digits_rightpad h.fraction_digits
  have hlength := length_rightpad h.places
  have hlt := value_lt hdigits
  rw [hlength] at hlt
  have hscaled : scaled whole fraction = value whole * 10 ^ 7 + value (fraction.rightpad 7 '0') := by
    rw [scaled, value_append, hlength]
  refine ⟨by omega, ?_⟩
  have hsame : fraction.rightpad 7 '0' = fractionDigits (scaled whole fraction) := by
    refine eq_of_value_eq hdigits (digits_fractionDigits _) (hlength.trans (length_fractionDigits _).symm) ?_
    rw [value_fractionDigits]
    omega
  rw [← hsame]
  exact (trimZeros_append_zeros fraction _).symm

/-- **The rendering is the shortest.** -/
theorem render_shortest (h : Decimal7.Written text whole fraction) (hn : scaled whole fraction = n) :
    text = renderDecimal7 n ∨ (renderDecimal7 n).length < text.length := by
  obtain ⟨hwhole, htrim⟩ := h.parts
  obtain ⟨hshort, hsame⟩ := toDigits_shortest h.whole_ne h.whole_digits
  rw [hn] at hwhole htrim
  rw [hwhole] at hshort hsame
  have hprefix : trimZeros (fractionDigits n) <+: fraction := htrim ▸ trimZeros_initial fraction
  have hplaces := hprefix.length_le
  rw [← String.toList_inj, ← String.length_toList, ← String.length_toList, toList_renderDecimal7]
  rcases h.text with ⟨htext, rfl⟩ | htext
  · have hzero := (trimZeros_fractionDigits_eq_nil_iff n).1 (List.prefix_nil.1 hprefix)
    rw [htext, if_pos hzero, List.append_nil]
    rcases Nat.lt_or_eq_of_le hshort with hlt | heq
    · exact .inr hlt
    · exact .inl (hsame heq).symm
  · rw [htext]
    by_cases hzero : n % 10 ^ 7 = 0
    · rw [if_pos hzero, List.append_nil, List.length_append, List.length_cons]
      exact .inr (by omega)
    · rw [if_neg hzero, List.length_append, List.length_append, List.length_cons, List.length_cons]
      by_cases heq : (Nat.toDigits 10 (n / 10 ^ 7)).length = whole.length ∧
          (trimZeros (fractionDigits n)).length = fraction.length
      · rw [hsame heq.1, hprefix.eq_of_length heq.2]
        exact .inl rfl
      · exact .inr (by omega)

end Rendering

/-- **Thresholds are parsed exactly, and rendered as the shortest text that
parses back.** -/
theorem Decimal7.parses_exactly :
    (∀ text v, Decimal7.fromStr text = .ok ⟨v⟩ ↔
      ∃ whole fraction, Decimal7.Written text whole fraction ∧ (v : ℚ) = denoted whole fraction * 10 ^ 7 ∧ FitsI128 v) ∧
    ∀ v, 0 ≤ v → FitsI128 v → Decimal7.fromStr (renderDecimal7 v) = .ok ⟨v⟩ ∧
      ∀ text, Decimal7.fromStr text = .ok ⟨v⟩ → text = renderDecimal7 v ∨ (renderDecimal7 v).length < text.length := by
  refine ⟨fun text v => ?_, fun v h0 hfits => ?_⟩
  · rw [fromStr_ok_iff]
    refine exists_congr fun whole => exists_congr fun fraction => and_congr_right fun hwritten => ?_
    have hmin : i128Min ≤ 0 := by decide
    rw [← scaled_eq hwritten.places]
    constructor
    · rintro ⟨rfl, hmax⟩
      exact ⟨Int.cast_natCast _, by omega, hmax⟩
    · rintro ⟨hv, -, hmax⟩
      exact ⟨by exact_mod_cast hv, hmax⟩
  · obtain ⟨n, rfl⟩ := Int.eq_ofNat_of_zero_le h0
    refine ⟨fromStr_ok_iff.2 ⟨_, _, written_render n, ?_, hfits.2⟩, fun text htext => ?_⟩
    · rw [scaled_render]
    · obtain ⟨whole, fraction, hwritten, hscaled, -⟩ := fromStr_ok_iff.1 htext
      exact render_shortest hwritten (Int.ofNat_inj.1 hscaled.symm)

end BlendLiquidator
