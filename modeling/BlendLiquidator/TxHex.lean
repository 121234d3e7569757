/-
A transaction hash's wire form (`TxHash` in `chain/mod.rs`): 64 hex digits.

Each pair of digits is left to `u8::from_str_radix`, whose own grammar has an
optional sign: `fromHex` reads a pair that is a `+` and one digit. `fromHex_ok_iff`
says what it accepts and what it makes of it; without such a pair the texts it
accepts are the 64 hex digits and no others.
-/
import BlendLiquidator.Chain
import BlendLiquidator.HexDigits
import BlendLiquidator.Results

namespace BlendLiquidator

open Results HexDigits

/-! ## The standard library -/

/-- The loop of `u8::from_str_radix` over the digits; an overflow is an
error. -/
def radixDigits : Nat → List UInt8 → Option UInt8
  | result, [] => some (.ofNat result)
  | result, byte :: digits => do
    let digit ← toDigit (.ofUInt8 byte)
    if result * 16 + digit ≤ 255 then radixDigits (result * 16 + digit) digits else none

/-- `u8::from_str_radix(src, 16)`: a leading `+` is skipped, a lone sign is an
error, and an unsigned type has no other sign. -/
def u8FromStrRadix (src : String) : Option UInt8 :=
  match asBytes src with
  | [] => none
  | [byte] => if byte = 43 ∨ byte = 45 then none else radixDigits 0 [byte]
  | byte :: digits => if byte = 43 then radixDigits 0 digits else radixDigits 0 (byte :: digits)

/-- `chunks(2)`. -/
def chunks {α : Type} : List α → List (List α)
  | [] => []
  | [a] => [[a]]
  | a :: b :: rest => [a, b] :: chunks rest

/-! ## The wire form -/

/-- `{byte:02x}`. -/
def lowerHex (byte : UInt8) : String := .ofList [(byte.toNat / 16).digitChar, (byte.toNat % 16).digitChar]

namespace TxHash

def toHex (hash : TxHash) : String := hash.bytes.toList.foldl (fun hex byte => hex ++ lowerHex byte) ""

-- the debug rendering of a text
variable (debug : String → String)

/-- One byte of the hash from its pair of digits. -/
def readPair (pair : List UInt8) : Except ChainError UInt8 :=
  match String.fromUTF8? pair.toByteArray with
  | none => .error (.shape "transaction hash is not ascii")
  | some digits => match u8FromStrRadix digits with
    | none => .error (.shape ("transaction hash digit " ++ debug digits))
    | some byte => .ok byte

def fromHex (text : String) : Except ChainError TxHash :=
  if (asBytes text).length ≠ 64 then
    .error (.shape ("transaction hash has " ++ toString (asBytes text).length ++ " characters, expected 64"))
  else do
    let out ← (chunks (asBytes text)).zipIdx.foldlM (fun (out : Vector UInt8 32) (pair, index) => do
      pure (out.setIfInBounds index (← readPair debug pair))) (Vector.replicate 32 0)
    pure ⟨out⟩

/-! ## What is accepted

The texts are taken pair by pair, as their characters. -/

/-- What stands for a pair's first digit. -/
def signedDigit (c : Char) : Option Nat := if c = '+' then some 0 else toDigit c

/-- The bytes of a text of pairs, if each has its digits. -/
def hexBytes : List Char → Option (List UInt8)
  | [] => some []
  | [_] => none
  | a :: b :: rest => do
    let hi ← signedDigit a
    let lo ← toDigit b
    let tail ← hexBytes rest
    some (.ofNat (hi * 16 + lo) :: tail)

variable {debug : String → String}

theorem ofUInt8_eq_plus {x : UInt8} : Char.ofUInt8 x = '+' ↔ x = 43 := by
  constructor
  · intro h
    have hval : (Char.ofUInt8 x).toNat = 43 := by rw [h]; rfl
    rw [toNat_ofUInt8] at hval
    exact UInt8.toNat_inj.1 hval
  · rintro rfl
    rfl

theorem radixDigits_cons {result : Nat} {x byte : UInt8} {digits : List UInt8} (hresult : result < 16) :
    radixDigits result (x :: digits) = some byte ↔
      ∃ digit, toDigit (.ofUInt8 x) = some digit ∧ radixDigits (result * 16 + digit) digits = some byte := by
  rw [radixDigits, Option.bind_eq_bind, Option.bind_eq_some_iff]
  refine exists_congr fun digit => and_congr_right fun hdigit => ?_
  have hlt := (digitChar_of_toDigit hdigit).1
  rw [if_pos (by omega)]

theorem u8FromStrRadix_pair {digits : String} {x y byte : UInt8} (h : asBytes digits = [x, y]) :
    u8FromStrRadix digits = some byte ↔
      ∃ hi lo, signedDigit (.ofUInt8 x) = some hi ∧ toDigit (.ofUInt8 y) = some lo ∧ UInt8.ofNat (hi * 16 + lo) = byte := by
  simp only [u8FromStrRadix, h, signedDigit, ofUInt8_eq_plus]
  by_cases hx : x = 43
  · rw [if_pos hx, radixDigits_cons (by decide)]
    simp [hx, radixDigits]
  · rw [if_neg hx, radixDigits_cons (by decide)]
    constructor
    · rintro ⟨hi, hhi, hlo⟩
      rw [Nat.zero_mul, Nat.zero_add, radixDigits_cons (digitChar_of_toDigit hhi).1] at hlo
      obtain ⟨lo, hlo, hbyte⟩ := hlo
      exact ⟨hi, lo, by rw [if_neg hx, hhi], hlo, Option.some.inj hbyte⟩
    · rintro ⟨hi, lo, hhi, hlo, hbyte⟩
      rw [if_neg hx] at hhi
      refine ⟨hi, hhi, ?_⟩
      rw [Nat.zero_mul, Nat.zero_add, radixDigits_cons (digitChar_of_toDigit hhi).1]
      exact ⟨lo, hlo, congrArg some hbyte⟩

theorem asBytes_fromUTF8 {pair : List UInt8} {digits : String} (h : String.fromUTF8? pair.toByteArray = some digits) :
    asBytes digits = pair := by
  unfold String.fromUTF8? at h
  split at h
  · obtain rfl := Option.some.inj h
    simp [asBytes, String.fromUTF8]
  · cases h

theorem lt_of_signedDigit {c : Char} {hi : Nat} (h : signedDigit c = some hi) : c.toNat < 128 := by
  unfold signedDigit at h
  split at h
  · rename_i hc
    rw [hc]
    decide
  · exact lt_of_isDigit (isDigit_iff.2 ⟨hi, h⟩)

theorem readPair_ok_iff {x y byte : UInt8} : readPair debug [x, y] = .ok byte ↔
    ∃ hi lo, signedDigit (.ofUInt8 x) = some hi ∧ toDigit (.ofUInt8 y) = some lo ∧ UInt8.ofNat (hi * 16 + lo) = byte := by
  unfold readPair
  cases hdigits : String.fromUTF8? [x, y].toByteArray with
  | none =>
    simp only [reduceCtorEq, false_iff]
    rintro ⟨hi, lo, hx, hy, -⟩
    have hascii : ∀ b ∈ [x, y], b.toNat < 128 := by
      have hx := lt_of_signedDigit hx
      have hy := lt_of_isDigit (isDigit_iff.2 ⟨lo, hy⟩)
      rw [toNat_ofUInt8] at hx hy
      simp [hx, hy]
    simp [String.fromUTF8?, isValidUTF8_of_ascii hascii] at hdigits
  | some digits =>
    rw [← u8FromStrRadix_pair (asBytes_fromUTF8 hdigits)]
    dsimp only
    cases u8FromStrRadix digits <;> simp

theorem mapM_readPair_iff : ∀ {pairs : List UInt8} {out : List UInt8}, pairs.length % 2 = 0 →
    ((chunks pairs).mapM (readPair debug) = .ok out ↔ hexBytes (pairs.map .ofUInt8) = some out)
  | [], out, _ => by simp [chunks, hexBytes, pure, Except.pure]
  | [_], _, h => by simp at h
  | x :: y :: rest, out, h => by
    have hrest : rest.length % 2 = 0 := by
      simp only [List.length_cons] at h
      omega
    rw [chunks, List.mapM_cons]
    simp only [bind_ok_iff, readPair_ok_iff, mapM_readPair_iff hrest, pure_ok_iff, List.map_cons, hexBytes,
      Option.bind_eq_bind, Option.bind_eq_some_iff, Option.some.injEq]
    constructor
    · rintro ⟨_, ⟨hi, lo, hx, hy, rfl⟩, tail, htail, rfl⟩
      exact ⟨hi, hx, lo, hy, tail, htail, rfl⟩
    · rintro ⟨hi, hx, lo, hy, tail, htail, rfl⟩
      exact ⟨_, ⟨hi, lo, hx, hy, rfl⟩, tail, htail, rfl⟩

/-- The loop writes what it reads one after the other. -/
theorem foldlM_set_iff {ε α : Type} {read : α → Except ε UInt8} {n : Nat} :
    ∀ {items : List α} {index : Nat} {out out' : Vector UInt8 n}, index + items.length ≤ n →
      ((items.zipIdx index).foldlM (fun (out : Vector UInt8 n) (item, index) => do
          pure (out.setIfInBounds index (← read item))) out = .ok out' ↔
        ∃ found, items.mapM read = .ok found ∧
          out'.toList = out.toList.take index ++ found ++ out.toList.drop (index + items.length))
  | [], index, out, out', _ => by
    simp [← Vector.toList_inj, pure, Except.pure, eq_comm]
  | item :: items, index, out, out', hle => by
    rw [List.length_cons] at hle
    have hlt : index < out.toList.length := by
      rw [Vector.length_toList]
      omega
    -- the byte stands after what was written, and what is left is untouched
    have hset : ∀ byte, (out.setIfInBounds index byte).toList.take (index + 1) = out.toList.take index ++ [byte] ∧
        (out.setIfInBounds index byte).toList.drop (index + 1 + items.length) =
          out.toList.drop (index + (items.length + 1)) := by
      intro byte
      rw [Vector.toList_setIfInBounds]
      constructor
      · rw [List.take_add_one, List.take_set, List.getElem?_set_self hlt, List.set_eq_of_length_le (List.length_take_le _ _)]
        rfl
      · rw [List.drop_set_of_lt (by omega)]
        congr 1
        omega
    rw [List.zipIdx_cons, List.foldlM_cons, List.mapM_cons]
    simp only [bind_ok_iff, pure_ok_iff]
    constructor
    · rintro ⟨_, ⟨byte, hbyte, rfl⟩, hrest⟩
      obtain ⟨found, hfound, hout⟩ := (foldlM_set_iff (by omega)).1 hrest
      rw [(hset byte).1, (hset byte).2] at hout
      exact ⟨byte :: found, ⟨byte, hbyte, found, hfound, rfl⟩, by simpa using hout⟩
    · rintro ⟨_, ⟨byte, hbyte, found, hfound, rfl⟩, hout⟩
      refine ⟨_, ⟨byte, hbyte, rfl⟩, (foldlM_set_iff (by omega)).2 ⟨found, hfound, ?_⟩⟩
      rw [(hset byte).1, (hset byte).2]
      simpa using hout

theorem length_chunks {α : Type} : ∀ l : List α, (chunks l).length = (l.length + 1) / 2
  | [] => by simp [chunks]
  | [_] => by simp [chunks]
  | _ :: _ :: rest => by
    rw [chunks, List.length_cons, length_chunks rest]
    simp only [List.length_cons]
    omega

theorem fromHex_ok_bytes {text : String} {hash : TxHash} : fromHex debug text = .ok hash ↔
    (asBytes text).length = 64 ∧ hexBytes ((asBytes text).map .ofUInt8) = some hash.bytes.toList := by
  unfold fromHex
  by_cases hlength : (asBytes text).length = 64
  · have hchunks : (chunks (asBytes text)).length = 32 := by
      rw [length_chunks]
      omega
    have hread : (chunks (asBytes text)).mapM (readPair debug) = .ok hash.bytes.toList ↔
        hexBytes ((asBytes text).map .ofUInt8) = some hash.bytes.toList := mapM_readPair_iff (by omega)
    rw [if_neg (not_not.2 hlength), ← hread]
    simp only [bind_ok_iff, pure_ok_iff, hlength, true_and]
    constructor
    · rintro ⟨out, hout, rfl⟩
      obtain ⟨found, hfound, hwritten⟩ := (foldlM_set_iff (by omega)).1 hout
      rw [hfound, hwritten, hchunks]
      simp
    · intro hfound
      refine ⟨hash.bytes, (foldlM_set_iff (by omega)).2 ⟨_, hfound, ?_⟩, rfl⟩
      rw [hchunks]
      simp
  · simp [hlength]

theorem lt_of_hexBytes : ∀ {chars : List Char} {out : List UInt8}, hexBytes chars = some out → ∀ c ∈ chars, c.toNat < 128
  | [], _, _ => by simp
  | [_], _, h => by simp [hexBytes] at h
  | a :: b :: rest, out, h => by
    simp only [hexBytes, Option.bind_eq_bind, Option.bind_eq_some_iff] at h
    obtain ⟨hi, ha, lo, hb, tail, htail, -⟩ := h
    have hrest := lt_of_hexBytes htail
    refine List.forall_mem_cons.2 ⟨lt_of_signedDigit ha, List.forall_mem_cons.2 ⟨?_, hrest⟩⟩
    exact lt_of_isDigit (isDigit_iff.2 ⟨lo, hb⟩)

theorem fromHex_ok_iff {text : String} {hash : TxHash} : fromHex debug text = .ok hash ↔
    text.toList.length = 64 ∧ hexBytes text.toList = some hash.bytes.toList := by
  rw [fromHex_ok_bytes]
  constructor
  · rintro ⟨hlength, hread⟩
    have hascii : ∀ b ∈ asBytes text, b.toNat < 128 := by
      intro b hb
      have hlt := lt_of_hexBytes hread _ (List.mem_map_of_mem hb)
      rwa [toNat_ofUInt8] at hlt
    have heq := map_asBytes_of_bytes hascii
    rw [← heq]
    exact ⟨by rw [List.length_map, hlength], hread⟩
  · rintro ⟨hlength, hread⟩
    have heq := map_asBytes_of_chars (lt_of_hexBytes hread)
    have hsame := congrArg List.length heq
    rw [List.length_map, hlength] at hsame
    exact ⟨hsame, by rw [heq, hread]⟩

/-- Each pair is a hex digit or a `+`, and a hex digit. -/
def Pairs : List Char → Prop
  | [] => True
  | [_] => False
  | a :: b :: rest => (IsDigit a ∨ a = '+') ∧ IsDigit b ∧ Pairs rest

theorem signedDigit_iff {c : Char} : (∃ hi, signedDigit c = some hi) ↔ IsDigit c ∨ c = '+' := by
  unfold signedDigit
  split
  · rename_i hc
    simp [hc]
  · rename_i hc
    simp [hc, isDigit_iff]

theorem hexBytes_some_iff : ∀ {chars : List Char}, (∃ out, hexBytes chars = some out) ↔ Pairs chars
  | [] => by simp [hexBytes, Pairs]
  | [_] => by simp [hexBytes, Pairs]
  | a :: b :: rest => by
    simp only [hexBytes, Option.bind_eq_bind, Option.bind_eq_some_iff]
    constructor
    · rintro ⟨_, hi, ha, lo, hb, tail, htail, -⟩
      exact ⟨signedDigit_iff.1 ⟨hi, ha⟩, isDigit_iff.2 ⟨lo, hb⟩, hexBytes_some_iff.1 ⟨tail, htail⟩⟩
    · rintro ⟨ha, hb, hrest⟩
      obtain ⟨hi, ha⟩ := signedDigit_iff.2 ha
      obtain ⟨lo, hb⟩ := isDigit_iff.1 hb
      obtain ⟨tail, htail⟩ := hexBytes_some_iff.2 hrest
      exact ⟨_, hi, ha, lo, hb, tail, htail, rfl⟩

theorem not_isDigit_plus : ¬IsDigit '+' := by
  unfold IsDigit
  decide

theorem isDigit_of_pairs : ∀ {chars : List Char}, Pairs chars → '+' ∉ chars → ∀ c ∈ chars, IsDigit c
  | [], _, _ => by simp
  | [_], h, _ => by cases h
  | a :: b :: rest, ⟨ha, hb, hrest⟩, hplus => by
    simp only [List.mem_cons, not_or] at hplus
    obtain ⟨hna, -, hnrest⟩ := hplus
    refine List.forall_mem_cons.2 ⟨?_, List.forall_mem_cons.2 ⟨hb, isDigit_of_pairs hrest hnrest⟩⟩
    exact ha.resolve_right fun h => hna h.symm

theorem pairs_of_isDigit : ∀ {chars : List Char}, chars.length % 2 = 0 → (∀ c ∈ chars, IsDigit c) → Pairs chars
  | [], _, _ => trivial
  | [_], h, _ => by simp at h
  | a :: b :: rest, h, hall => by
    obtain ⟨ha, hall⟩ := List.forall_mem_cons.1 hall
    obtain ⟨hb, hall⟩ := List.forall_mem_cons.1 hall
    refine ⟨.inl ha, hb, pairs_of_isDigit ?_ hall⟩
    simp only [List.length_cons] at h
    omega

theorem length_hexBytes : ∀ {chars : List Char} {out : List UInt8}, hexBytes chars = some out →
    chars.length = 2 * out.length
  | [], _, h => by
    obtain rfl := Option.some.inj h
    rfl
  | [_], _, h => by simp [hexBytes] at h
  | a :: b :: rest, out, h => by
    simp only [hexBytes, Option.bind_eq_bind, Option.bind_eq_some_iff, Option.some.injEq] at h
    obtain ⟨hi, -, lo, -, tail, htail, rfl⟩ := h
    have hrest := length_hexBytes htail
    simp only [List.length_cons]
    omega

/-! ## What is written -/

def hexPair (byte : UInt8) : List Char := [(byte.toNat / 16).digitChar, (byte.toNat % 16).digitChar]

theorem toList_toHex (hash : TxHash) : hash.toHex.toList = hash.bytes.toList.flatMap hexPair := by
  have hfold : ∀ (l : List UInt8) (hex : String),
      (l.foldl (fun hex byte => hex ++ lowerHex byte) hex).toList = hex.toList ++ l.flatMap hexPair := by
    intro l
    induction l with
    | nil => simp
    | cons byte l ih =>
      intro hex
      rw [List.foldl_cons, ih, List.flatMap_cons]
      simp [lowerHex, hexPair]
  rw [toHex, hfold]
  rfl

theorem digitChar_ne_plus {d : Nat} (h : d < 16) : d.digitChar ≠ '+' := by
  intro heq
  have hdigit := toDigit_digitChar h
  rw [heq] at hdigit
  cases hdigit

/-- What was written is read back. -/
theorem hexBytes_hexPair : ∀ out : List UInt8, hexBytes (out.flatMap hexPair) = some out
  | [] => rfl
  | byte :: out => by
    have hlt := byte.toNat_lt
    have hhi : signedDigit (byte.toNat / 16).digitChar = some (byte.toNat / 16) := by
      rw [signedDigit, if_neg (digitChar_ne_plus (by omega)), toDigit_digitChar (by omega)]
    have hlo : toDigit (byte.toNat % 16).digitChar = some (byte.toNat % 16) := toDigit_digitChar (by omega)
    rw [List.flatMap_cons, hexPair, List.cons_append, List.cons_append, List.nil_append, hexBytes, hhi, hlo,
      hexBytes_hexPair out]
    have hbyte : UInt8.ofNat (byte.toNat / 16 * 16 + byte.toNat % 16) = byte := by
      rw [Nat.div_add_mod', UInt8.ofNat_toNat]
    simp only [Option.bind_eq_bind, Option.bind_some, hbyte]

/-- What was read is written back in lower case, a sign apart. -/
theorem flatMap_hexPair : ∀ {chars : List Char} {out : List UInt8}, hexBytes chars = some out → '+' ∉ chars →
    out.flatMap hexPair = chars.map Char.toLower
  | [], out, h, _ => by
    obtain rfl := Option.some.inj h
    rfl
  | [_], _, h, _ => by simp [hexBytes] at h
  | a :: b :: rest, out, h, hplus => by
    simp only [hexBytes, Option.bind_eq_bind, Option.bind_eq_some_iff, Option.some.injEq] at h
    obtain ⟨hi, ha, lo, hb, tail, htail, rfl⟩ := h
    simp only [List.mem_cons, not_or] at hplus
    obtain ⟨hna, -, hnrest⟩ := hplus
    rw [signedDigit, if_neg fun h => hna h.symm] at ha
    obtain ⟨hhi, hahi⟩ := digitChar_of_toDigit ha
    obtain ⟨hlo, hblo⟩ := digitChar_of_toDigit hb
    have hbyte : (UInt8.ofNat (hi * 16 + lo)).toNat = hi * 16 + lo := by
      rw [UInt8.toNat_ofNat']
      omega
    rw [List.flatMap_cons, flatMap_hexPair htail hnrest, hexPair, hbyte, show (hi * 16 + lo) / 16 = hi by omega,
      show (hi * 16 + lo) % 16 = lo by omega, hahi, hblo]
    rfl

/-- A text of 64 hex digits, but that a pair begins with a sign. -/
def Signed (text : String) : Prop := text.toList.length = 64 ∧ Pairs text.toList ∧ '+' ∈ text.toList

/-- A hash is read back from what it is written as. A text is accepted just
if it is 64 hex digits, and then written back in lower case, if and only if
it is not such a text with a sign. -/
theorem fromHex_exact (debug : String → String) (text : String) :
    (∀ hash : TxHash, fromHex debug hash.toHex = .ok hash) ∧
    ((((∃ hash, fromHex debug text = .ok hash) ↔ text.toList.length = 64 ∧ ∀ c ∈ text.toList, IsDigit c) ∧
      ∀ hash, fromHex debug text = .ok hash → hash.toHex = text.toLower) ↔ ¬Signed text) := by
  have haccepted : (∃ hash, fromHex debug text = .ok hash) ↔ text.toList.length = 64 ∧ Pairs text.toList := by
    constructor
    · rintro ⟨hash, hread⟩
      obtain ⟨hlength, hread⟩ := fromHex_ok_iff.1 hread
      exact ⟨hlength, hexBytes_some_iff.1 ⟨_, hread⟩⟩
    · rintro ⟨hlength, hpairs⟩
      obtain ⟨out, hread⟩ := hexBytes_some_iff.2 hpairs
      have hout : out.length = 32 := by
        have hcount := length_hexBytes hread
        omega
      exact ⟨⟨⟨out.toArray, by simpa using hout⟩⟩, fromHex_ok_iff.2 ⟨hlength, by simpa using hread⟩⟩
  refine ⟨fun hash => ?_, ?_⟩
  · rw [fromHex_ok_iff, toList_toHex]
    have hread := hexBytes_hexPair hash.bytes.toList
    refine ⟨?_, hread⟩
    rw [length_hexBytes hread, Vector.length_toList]
  constructor
  · rintro ⟨hgrammar, -⟩ ⟨hlength, hpairs, hplus⟩
    exact not_isDigit_plus ((hgrammar.1 (haccepted.2 ⟨hlength, hpairs⟩)).2 '+' hplus)
  · intro hsigned
    refine ⟨?_, ?_⟩
    · rw [haccepted]
      refine and_congr_right fun hlength => ⟨fun hpairs => ?_, pairs_of_isDigit (by omega)⟩
      exact isDigit_of_pairs hpairs fun hplus => hsigned ⟨hlength, hpairs, hplus⟩
    · intro hash hread
      obtain ⟨hlength, hpairs⟩ := haccepted.1 ⟨hash, hread⟩
      have hwritten := flatMap_hexPair (fromHex_ok_iff.1 hread).2 fun hplus => hsigned ⟨hlength, hpairs, hplus⟩
      rw [← String.toList_inj, toList_toHex, hwritten]
      exact String.toList_map.symm

/-- Thirty-two times a sign and a digit. -/
def signedText : String := .ofList (List.replicate 32 ['+', 'f']).flatten

/-- It is accepted, and written back as another text. -/
theorem fromHex_signed : signedText.toList.length = 64 ∧ (¬∀ c ∈ signedText.toList, IsDigit c) ∧
    ∃ hash, fromHex (fun text => text) signedText = .ok hash ∧ hash.toHex ≠ signedText.toLower := by
  have hchars : signedText.toList = (List.replicate 32 ['+', 'f']).flatten := String.toList_ofList
  refine ⟨by rw [hchars]; rfl, ?_, ⟨Vector.replicate 32 15⟩, fromHex_ok_iff.2 ⟨by rw [hchars]; rfl, ?_⟩, ?_⟩
  · intro hdigits
    rw [hchars] at hdigits
    exact not_isDigit_plus (hdigits '+' (by decide))
  · rw [hchars]
    decide
  · intro heq
    have hlower : signedText.toLower.toList = signedText.toList.map Char.toLower := String.toList_map
    have hlist := congrArg String.toList heq
    rw [toList_toHex, hlower, hchars] at hlist
    revert hlist
    decide

end TxHash

end BlendLiquidator
