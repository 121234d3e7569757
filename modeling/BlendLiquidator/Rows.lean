/-
The rows of the store (`store.rs`, `migrations/`): what a borrower and an auction
are written as, column by column, and what is read back of them.

An amount exceeds what a JSON number holds exactly, so a side of a position or of
an auction is an object of decimal strings; a health factor is a `numeric`, read as
text. A text, a `bigint` or a `smallint` that the types exclude is an error and
never a zero.
-/
import BlendLiquidator.Decimal7
import BlendLiquidator.Store
import BlendLiquidator.TreeMaps

namespace BlendLiquidator

open DecimalDigits HexDigits Results TreeMaps

/-! ## The columns -/

/-- A `jsonb` value: an object's members, each the text of a string or another
value, or no object. -/
inductive Json
  | object (members : BTreeMap String (Option String))
  | other

/-- What a `Json` error says of a column. -/
inductive JsonDetail
  | notObject
  | notIndex (key : String)
  | notString (key : String)
  | notInteger (key : String)

/-- `StoreError::Decimal` and `StoreError::Json`. -/
inductive RowError
  | decimal (column value : String)
  | json (column : String) (detail : JsonDetail)

def checkedU32 (n : Nat) : Option Nat := if n ≤ u32Max then some n else none

/-- The loop of `u32`'s parser over the digits. -/
def u32Digits : Nat → List UInt8 → Option Nat
  | result, [] => some result
  | result, byte :: digits =>
    if isAsciiDigit byte then do
      let tens ← checkedU32 (result * 10)
      let result ← checkedU32 (tens + (byte.toNat - 48))
      u32Digits result digits
    else
      none

/-- `str::parse::<u32>`: a plus is skipped, a minus is no digit, and a lone sign is
an error. -/
def parseU32 (src : String) : Option Nat :=
  match asBytes src with
  | [] => none
  | [byte] => if byte = 43 ∨ byte = 45 then none else u32Digits 0 [byte]
  | byte :: digits => if byte = 43 then u32Digits 0 digits else u32Digits 0 (byte :: digits)

/-- A `numeric` selected as text. -/
def decimalColumn (text : Option String) (column : String) : Except RowError Int :=
  match text with
  | none => .error (.decimal column "NULL")
  | some text =>
    match parseI128 text with
    | some value => .ok value
    | none => .error (.decimal column text)

/-- The text of a member. -/
def memberText (column key : String) (member : Option String) : Except RowError String :=
  match member with
  | some text => .ok text
  | none => .error (.json column (.notString key))

def memberAmount (column key text : String) : Except RowError Int :=
  match parseI128 text with
  | some amount => .ok amount
  | none => .error (.json column (.notInteger key))

def memberIndex (column key : String) : Except RowError Nat :=
  match parseU32 key with
  | some index => .ok index
  | none => .error (.json column (.notIndex key))

def members (column : String) : Json → Except RowError (List (String × Option String))
  | .object members => .ok members.toList
  | .other => .error (.json column .notObject)

/-- A reserve-index-to-amount map: keys and values in decimal. -/
def indexAmountsToJson (amounts : BTreeMap Nat Int) : Json :=
  .object (encoded toString (fun amount => some (toString amount)) amounts)

def readIndexAmount (column : String) (amounts : BTreeMap Nat Int) (entry : String × Option String) :
    Except RowError (BTreeMap Nat Int) := do
  let index ← memberIndex column entry.1
  let amount ← memberAmount column entry.1 (← memberText column entry.1 entry.2)
  pure (amounts.insert index amount)

def indexAmountsFromJson (value : Json) (column : String) : Except RowError (BTreeMap Nat Int) := do
  (← members column value).foldlM (readIndexAmount column) ∅

/-- The same of a map keyed by asset. -/
def assetAmountsToJson (amounts : BTreeMap String Int) : Json :=
  .object (encoded id (fun amount => some (toString amount)) amounts)

def readAssetAmount (column : String) (amounts : BTreeMap String Int) (entry : String × Option String) :
    Except RowError (BTreeMap String Int) := do
  let amount ← memberAmount column entry.1 (← memberText column entry.1 entry.2)
  pure (amounts.insert entry.1 amount)

def assetAmountsFromJson (value : Json) (column : String) : Except RowError (BTreeMap String Int) := do
  (← members column value).foldlM (readAssetAmount column) ∅

/-- A `bigint` ledger back into a `u32`. -/
def ledgerColumn (value : Int) (column : String) : Except RowError Nat :=
  if 0 ≤ value ∧ value ≤ u32Max then .ok value.toNat else .error (.decimal column (toString value))

def auctionTypeCode (auctionType : AuctionType) : Int := auctionType.code

/-- A `smallint` back into a type the contract has. -/
def auctionTypeFromCode (code : Int) : Except RowError AuctionType := do
  let value ← (ledgerColumn code "auction_type")
  (AuctionType.tryFrom (.ofNat value)).mapError fun _ => .decimal "auction_type" (toString code)

def percentFromCode (code : Int) : Except RowError FillPercent := do
  let value ← ledgerColumn code "percent"
  match FillPercent.tryFrom value with
  | some percent => .ok percent
  | none => .error (.decimal "percent" (toString code))

/-- `i16::try_from` of a percent. -/
def percentCode (percent : FillPercent) : Except RowError Int :=
  if percent.get < 2 ^ 15 then .ok percent.get else .error (.decimal "percent" (toString percent.get))

/-! ## The rows -/

/-- A row of `users`. The health factor is a `numeric`, which comes back as the text
of the integer it was written from. -/
structure UserRow where
  pool : String
  account : String
  healthFactor : Option String
  collateral : Json
  liabilities : Json
  updatedLedger : Int
  recheckLedger : Option Int

/-- A row of `auctions`. -/
structure AuctionRow where
  pool : String
  account : String
  auctionType : Int
  startLedger : Int
  fillLedger : Option Int
  percent : Option Int
  bid : Json
  lot : Json
  updatedLedger : Int

/-- An optional column. -/
def optionalColumn {α β : Type} (read : α → Except RowError β) : Option α → Except RowError (Option β)
  | none => .ok none
  | some value => do pure (some (← read value))

namespace UserRow

/-- What `upsert_user` binds, beside the recheck column as it stands. -/
def ofUser (user : TrackedUser) : UserRow where
  pool := user.pool
  account := user.account
  healthFactor := some (toString user.healthFactor)
  collateral := indexAmountsToJson user.collateral
  liabilities := indexAmountsToJson user.liabilities
  updatedLedger := user.updatedLedger
  recheckLedger := user.recheckLedger.map (↑)

/-- What `user` and every query of borrowers make of a row. -/
def toUser (row : UserRow) : Except RowError TrackedUser := do
  let healthFactor ← decimalColumn row.healthFactor "health_factor"
  let collateral ← indexAmountsFromJson row.collateral "collateral"
  let liabilities ← indexAmountsFromJson row.liabilities "liabilities"
  let updatedLedger ← ledgerColumn row.updatedLedger "updated_ledger"
  let recheckLedger ← optionalColumn (ledgerColumn · "recheck_ledger") row.recheckLedger
  pure { pool := row.pool, account := row.account, healthFactor, collateral, liabilities, updatedLedger, recheckLedger }

end UserRow

namespace AuctionRow

/-- What `upsert_auction` binds. -/
def ofAuction (auction : TrackedAuction) : Except RowError AuctionRow := do
  let percent ← optionalColumn percentCode auction.percent
  pure
    { pool := auction.pool
      account := auction.account
      auctionType := auctionTypeCode auction.auctionType
      startLedger := auction.startLedger
      fillLedger := auction.fillLedger.map (↑)
      percent
      bid := assetAmountsToJson auction.bid
      lot := assetAmountsToJson auction.lot
      updatedLedger := auction.updatedLedger }

/-- What `auction` and `open_auctions` make of a row. -/
def toAuction (row : AuctionRow) : Except RowError TrackedAuction := do
  let auctionType ← auctionTypeFromCode row.auctionType
  let startLedger ← ledgerColumn row.startLedger "start_ledger"
  let fillLedger ← optionalColumn (ledgerColumn · "fill_ledger") row.fillLedger
  let percent ← optionalColumn percentFromCode row.percent
  let bid ← assetAmountsFromJson row.bid "bid"
  let lot ← assetAmountsFromJson row.lot "lot"
  let updatedLedger ← ledgerColumn row.updatedLedger "updated_ledger"
  pure { pool := row.pool, account := row.account, auctionType, startLedger, fillLedger, percent, bid, lot, updatedLedger }

end AuctionRow

/-! ## Numbers as text -/

theorem ofDigitChars_byte {byte : UInt8} {digits : List UInt8} {n : Nat} :
    Nat.ofDigitChars 10 ((byte :: digits).map Char.ofUInt8) n =
      Nat.ofDigitChars 10 (digits.map Char.ofUInt8) (10 * n + (byte.toNat - 48)) := by
  rw [List.map_cons, Nat.ofDigitChars_cons, toNat_ofUInt8]
  rfl

/-- More digits make no less. -/
theorem le_ofDigitChars (digits : List Char) (n : Nat) : n ≤ Nat.ofDigitChars 10 digits n := by
  rw [Nat.ofDigitChars_eq_ofDigitChars_zero]
  exact (Nat.le_mul_of_pos_left _ (Nat.pow_pos (by decide))).trans (Nat.le_add_right _ _)

theorem i128Digits_neg {digits : List UInt8} (hall : digits.all isAsciiDigit = true) {n : Nat}
    (hfits : i128Min ≤ -(Nat.ofDigitChars 10 (digits.map Char.ofUInt8) n : Int)) :
    i128Digits (-1) (-(n : Int)) digits = some (-(Nat.ofDigitChars 10 (digits.map Char.ofUInt8) n : Int)) := by
  induction digits generalizing n with
  | nil => rfl
  | cons byte digits ih =>
    rw [List.all_cons, Bool.and_eq_true] at hall
    have hrange := isDigit_iff_toNat.1 (isAsciiDigit_iff.1 hall.1)
    rw [toNat_ofUInt8] at hrange
    rw [ofDigitChars_byte] at hfits ⊢
    have hgrows := le_ofDigitChars (digits.map Char.ofUInt8) (10 * n + (byte.toNat - 48))
    have hmax : 0 ≤ i128Max := by decide
    have htens : checked (-(n : Int) * 10) = some (-(n : Int) * 10) := checked_eq_some_iff.2 ⟨rfl, by omega, by omega⟩
    have hnext : checked (-(n : Int) * 10 + -1 * ((byte.toNat : Int) - 48)) =
        some (-((10 * n + (byte.toNat - 48) : Nat) : Int)) :=
      checked_eq_some_iff.2 ⟨by omega, by omega, by omega⟩
    rw [i128Digits, if_pos hall.1, htens]
    show (checked (-(n : Int) * 10 + -1 * ((byte.toNat : Int) - 48))).bind (fun result => i128Digits (-1) result digits) = _
    rw [hnext]
    exact ih hall.2 hfits

theorem parseI128_toString {v : Int} (h : FitsI128 v) : parseI128 (toString v) = some v := by
  cases v with
  | ofNat n =>
    have htext : (toString (Int.ofNat n)).toList = Nat.toDigits 10 n := Nat.toList_repr
    have hdigits : Digits (toString (Int.ofNat n)).toList := by
      rw [htext]
      exact digits_toDigits n
    refine (parseI128_iff (by rw [htext]; exact Nat.toDigits_ne_nil) hdigits).2 ⟨?_, h.2⟩
    rw [htext, value, Nat.ofDigitChars_ten_toDigits]
    rfl
  | negSucc n =>
    have htext : (toString (Int.negSucc n)).toList = '-' :: Nat.toDigits 10 (n + 1) := by
      show ("-" ++ Nat.repr (n + 1)).toList = _
      rw [String.toList_append, Nat.toList_repr]
      rfl
    have hbytes : (asBytes (toString (Int.negSucc n))).map Char.ofUInt8 = '-' :: Nat.toDigits 10 (n + 1) := by
      rw [← htext]
      refine map_asBytes_of_chars fun c hc => ?_
      rw [htext] at hc
      rcases List.mem_cons.1 hc with rfl | hc
      · decide
      · have hrange := isDigit_iff_toNat.1 (digits_toDigits _ c hc)
        omega
    obtain ⟨byte, digits, heq, hminus, hdigits⟩ := List.map_eq_cons_iff.1 hbytes
    obtain rfl : byte = 45 := UInt8.toNat_inj.1 (by rw [← toNat_ofUInt8, hminus]; rfl)
    have hall : digits.all isAsciiDigit = true := by
      refine List.all_eq_true.2 fun digit hdigit => isAsciiDigit_iff.2 (digits_toDigits (n + 1) _ ?_)
      rw [← hdigits]
      exact List.mem_map_of_mem hdigit
    have hvalue : Nat.ofDigitChars 10 (digits.map Char.ofUInt8) 0 = n + 1 := by
      rw [hdigits, Nat.ofDigitChars_ten_toDigits]
    have hloop := i128Digits_neg hall (n := 0) (by rw [hvalue]; exact h.1)
    rw [hvalue] at hloop
    have hne : digits ≠ [] := by
      rintro rfl
      exact Nat.toDigits_ne_nil hdigits.symm
    rw [parseI128, heq]
    cases digits with
    | nil => exact absurd rfl hne
    | cons digit digits => exact hloop

theorem u32Digits_of_le {digits : List UInt8} (hall : digits.all isAsciiDigit = true) {n : Nat}
    (hfits : Nat.ofDigitChars 10 (digits.map Char.ofUInt8) n ≤ u32Max) :
    u32Digits n digits = some (Nat.ofDigitChars 10 (digits.map Char.ofUInt8) n) := by
  induction digits generalizing n with
  | nil => rfl
  | cons byte digits ih =>
    rw [List.all_cons, Bool.and_eq_true] at hall
    rw [ofDigitChars_byte] at hfits ⊢
    have hgrows := le_ofDigitChars (digits.map Char.ofUInt8) (10 * n + (byte.toNat - 48))
    have htens : checkedU32 (n * 10) = some (n * 10) := if_pos (by omega)
    have hnext : checkedU32 (n * 10 + (byte.toNat - 48)) = some (10 * n + (byte.toNat - 48)) := by
      rw [checkedU32, if_pos (by omega), Nat.mul_comm]
    rw [u32Digits, if_pos hall.1, htens]
    show (checkedU32 (n * 10 + (byte.toNat - 48))).bind (fun result => u32Digits result digits) = _
    rw [hnext]
    exact ih hall.2 hfits

theorem parseU32_toString {n : Nat} (h : n ≤ u32Max) : parseU32 (toString n) = some n := by
  have htext : (toString n).toList = Nat.toDigits 10 n := Nat.toList_repr
  have hdigits : Digits (toString n).toList := by
    rw [htext]
    exact digits_toDigits n
  have hchars := Digits.asBytes hdigits
  have hall := all_isAsciiDigit_iff.2 ⟨hdigits, hchars⟩
  have hvalue : Nat.ofDigitChars 10 ((asBytes (toString n)).map Char.ofUInt8) 0 = n := by
    rw [hchars, htext, Nat.ofDigitChars_ten_toDigits]
  have hloop := u32Digits_of_le hall (n := 0) (by rw [hvalue]; exact h)
  rw [hvalue] at hloop
  have hfirst : ∀ byte ∈ asBytes (toString n), byte ≠ 43 ∧ byte ≠ 45 := by
    intro byte hbyte
    have hrange := List.all_eq_true.1 hall byte hbyte
    rw [isAsciiDigit, decide_eq_true_eq] at hrange
    constructor
    · rintro rfl
      simp at hrange
    · rintro rfl
      simp at hrange
  rw [parseU32]
  cases hbytes : asBytes (toString n) with
  | nil =>
    rw [hbytes, List.map_nil, htext] at hchars
    exact absurd hchars.symm Nat.toDigits_ne_nil
  | cons byte digits =>
    rw [hbytes] at hloop hfirst
    obtain ⟨hplus, hminus⟩ := hfirst byte List.mem_cons_self
    cases digits with
    | nil =>
      dsimp only
      rw [if_neg (by simp [hplus, hminus])]
      exact hloop
    | cons digit digits =>
      dsimp only
      rw [if_neg hplus]
      exact hloop

theorem toString_injective : Function.Injective (toString : Nat → String) := by
  intro a b h
  have hlist : Nat.toDigits 10 a = Nat.toDigits 10 b := by
    rw [← Nat.toList_repr, ← Nat.toList_repr]
    exact congrArg String.toList h
  rw [← Nat.ofDigitChars_ten_toDigits (n := a), hlist, Nat.ofDigitChars_ten_toDigits]

/-- Whatever is parsed fits: every step is checked. -/
theorem i128Digits_fits {sign result v : Int} {digits : List UInt8} (hresult : FitsI128 result)
    (h : i128Digits sign result digits = some v) : FitsI128 v := by
  induction digits generalizing result with
  | nil =>
    obtain rfl := Option.some.inj h
    exact hresult
  | cons byte digits ih =>
    rw [i128Digits] at h
    split at h
    · obtain ⟨tens, -, h⟩ := Option.bind_eq_some_iff.1 h
      obtain ⟨next, hnext, h⟩ := Option.bind_eq_some_iff.1 h
      obtain ⟨rfl, hfits⟩ := checked_eq_some_iff.1 hnext
      exact ih hfits h
    · cases h

theorem parseI128_fits {src : String} {v : Int} (h : parseI128 src = some v) : FitsI128 v := by
  have hzero : FitsI128 0 := ⟨by decide, by decide⟩
  unfold parseI128 at h
  split at h
  · cases h
  · split at h
    · cases h
    · exact i128Digits_fits hzero h
  · split at h
    · exact i128Digits_fits hzero h
    · split at h
      · exact i128Digits_fits hzero h
      · exact i128Digits_fits hzero h

theorem u32Digits_fits {result n : Nat} {digits : List UInt8} (hresult : result ≤ u32Max)
    (h : u32Digits result digits = some n) : n ≤ u32Max := by
  induction digits generalizing result with
  | nil =>
    obtain rfl := Option.some.inj h
    exact hresult
  | cons byte digits ih =>
    rw [u32Digits] at h
    split at h
    · obtain ⟨tens, -, h⟩ := Option.bind_eq_some_iff.1 h
      obtain ⟨next, hnext, h⟩ := Option.bind_eq_some_iff.1 h
      unfold checkedU32 at hnext
      split at hnext
      · next hle =>
        obtain rfl := Option.some.inj hnext
        exact ih hle h
      · cases hnext
    · cases h

theorem parseU32_fits {src : String} {n : Nat} (h : parseU32 src = some n) : n ≤ u32Max := by
  have hzero : 0 ≤ u32Max := Nat.zero_le _
  unfold parseU32 at h
  split at h
  · cases h
  · split at h
    · cases h
    · exact u32Digits_fits hzero h
  · split at h
    · exact u32Digits_fits hzero h
    · exact u32Digits_fits hzero h

/-! ## Columns read back -/

/-- The indices are `u32`s and the amounts `i128`s. -/
def IndexedFit (amounts : BTreeMap Nat Int) : Prop :=
  ∀ (index : Nat) (amount : Int), amounts[index]? = some amount → index ≤ u32Max ∧ FitsI128 amount

def AmountsFit (amounts : BTreeMap String Int) : Prop :=
  ∀ (asset : String) (amount : Int), amounts[asset]? = some amount → FitsI128 amount

theorem memberAmount_ok_iff {column key text : String} {amount : Int} :
    memberAmount column key text = .ok amount ↔ parseI128 text = some amount := by
  unfold memberAmount
  cases parseI128 text <;> simp

theorem memberIndex_ok_iff {column key : String} {index : Nat} :
    memberIndex column key = .ok index ↔ parseU32 key = some index := by
  unfold memberIndex
  cases parseU32 key <;> simp

theorem memberText_ok_iff {column key text : String} {member : Option String} :
    memberText column key member = .ok text ↔ member = some text := by
  cases member <;> simp [memberText]

theorem readIndexAmount_ok_iff {column : String} {amounts amounts' : BTreeMap Nat Int} {entry : String × Option String} :
    readIndexAmount column amounts entry = .ok amounts' ↔ ∃ index amount text, parseU32 entry.1 = some index ∧
      entry.2 = some text ∧ parseI128 text = some amount ∧ amounts.insert index amount = amounts' := by
  simp only [readIndexAmount, bind_ok_iff, pure_ok_iff, memberIndex_ok_iff, memberAmount_ok_iff, memberText_ok_iff]
  constructor
  · rintro ⟨index, hindex, text, htext, amount, hamount, h⟩
    exact ⟨index, amount, text, hindex, htext, hamount, h⟩
  · rintro ⟨index, amount, text, hindex, htext, hamount, h⟩
    exact ⟨index, hindex, text, htext, amount, hamount, h⟩

theorem indexAmounts_back {amounts : BTreeMap Nat Int} (h : IndexedFit amounts) (column : String) :
    indexAmountsFromJson (indexAmountsToJson amounts) column = .ok amounts := by
  refine foldlM_encoded toString_injective fun index amount hamount read => ?_
  obtain ⟨hindex, hfits⟩ := h index amount hamount
  exact readIndexAmount_ok_iff.2 ⟨index, amount, _, parseU32_toString hindex, rfl, parseI128_toString hfits, rfl⟩

theorem indexAmounts_fit {value : Json} {column : String} {amounts : BTreeMap Nat Int}
    (h : indexAmountsFromJson value column = .ok amounts) : IndexedFit amounts := by
  obtain ⟨entries, -, hfold⟩ := bind_ok_iff.1 h
  refine foldlM_inv (fun _ => IndexedFit) (fun entry rest amounts amounts' hamounts hstep => ?_) (by simp [IndexedFit]) hfold
  obtain ⟨index, amount, text, hindex, -, hamount, rfl⟩ := readIndexAmount_ok_iff.1 hstep
  intro other found hfound
  rw [getElem?_insert] at hfound
  by_cases hsame : index = other
  · rw [if_pos hsame, Option.some.injEq] at hfound
    exact ⟨hsame ▸ parseU32_fits hindex, hfound ▸ parseI128_fits hamount⟩
  · rw [if_neg hsame] at hfound
    exact hamounts other found hfound

theorem readAssetAmount_ok_iff {column : String} {amounts amounts' : BTreeMap String Int}
    {entry : String × Option String} : readAssetAmount column amounts entry = .ok amounts' ↔
      ∃ amount text, entry.2 = some text ∧ parseI128 text = some amount ∧ amounts.insert entry.1 amount = amounts' := by
  simp only [readAssetAmount, bind_ok_iff, pure_ok_iff, memberAmount_ok_iff, memberText_ok_iff]
  constructor
  · rintro ⟨text, htext, amount, hamount, h⟩
    exact ⟨amount, text, htext, hamount, h⟩
  · rintro ⟨amount, text, htext, hamount, h⟩
    exact ⟨text, htext, amount, hamount, h⟩

theorem assetAmounts_back {amounts : BTreeMap String Int} (h : AmountsFit amounts) (column : String) :
    assetAmountsFromJson (assetAmountsToJson amounts) column = .ok amounts := by
  refine foldlM_encoded Function.injective_id fun asset amount hamount read => ?_
  exact readAssetAmount_ok_iff.2 ⟨amount, _, rfl, parseI128_toString (h asset amount hamount), rfl⟩

theorem assetAmounts_fit {value : Json} {column : String} {amounts : BTreeMap String Int}
    (h : assetAmountsFromJson value column = .ok amounts) : AmountsFit amounts := by
  obtain ⟨entries, -, hfold⟩ := bind_ok_iff.1 h
  refine foldlM_inv (fun _ => AmountsFit) (fun entry rest amounts amounts' hamounts hstep => ?_) (by simp [AmountsFit]) hfold
  obtain ⟨amount, text, -, hamount, rfl⟩ := readAssetAmount_ok_iff.1 hstep
  intro other found hfound
  rw [getElem?_insert] at hfound
  by_cases hsame : entry.1 = other
  · rw [if_pos hsame, Option.some.injEq] at hfound
    exact hfound ▸ parseI128_fits hamount
  · rw [if_neg hsame] at hfound
    exact hamounts other found hfound

theorem decimalColumn_ok_iff {text : Option String} {column : String} {v : Int} :
    decimalColumn text column = .ok v ↔ ∃ src, text = some src ∧ parseI128 src = some v := by
  cases text with
  | none => simp [decimalColumn]
  | some src =>
    simp only [decimalColumn, Option.some.injEq, exists_eq_left']
    cases parseI128 src <;> simp

theorem ledgerColumn_ok_iff {value : Int} {column : String} {ledger : Nat} :
    ledgerColumn value column = .ok ledger ↔ value = ledger ∧ ledger ≤ u32Max := by
  unfold ledgerColumn
  constructor
  · intro h
    split at h
    · obtain rfl := Except.ok.inj h
      omega
    · cases h
  · rintro ⟨rfl, hle⟩
    rw [if_pos ⟨by omega, by omega⟩, Int.toNat_natCast]

theorem optionalColumn_ok_iff {α β : Type} {read : α → Except RowError β} {value : Option α} {found : Option β} :
    optionalColumn read value = .ok found ↔
      (value = none ∧ found = none) ∨ ∃ a b, value = some a ∧ read a = .ok b ∧ found = some b := by
  cases value with
  | none => simp [optionalColumn, eq_comm]
  | some a =>
    simp only [optionalColumn, bind_ok_iff, pure_ok_iff]
    simp [eq_comm]

theorem optionalLedger_back {ledger : Option Nat} {column : String} :
    optionalColumn (ledgerColumn · column) (ledger.map (↑)) = .ok ledger ↔ ∀ n ∈ ledger, n ≤ u32Max := by
  rw [optionalColumn_ok_iff]
  cases ledger with
  | none => simp
  | some n => simp [ledgerColumn_ok_iff]

theorem optionalLedger_fits {value : Option Int} {ledger : Option Nat} {column : String}
    (h : optionalColumn (ledgerColumn · column) value = .ok ledger) : ∀ n ∈ ledger, n ≤ u32Max := by
  intro n hn
  rcases optionalColumn_ok_iff.1 h with ⟨-, rfl⟩ | ⟨a, b, -, hread, rfl⟩
  · cases hn
  · obtain rfl := Option.some.inj hn
    exact (ledgerColumn_ok_iff.1 hread).2

theorem auctionType_back (auctionType : AuctionType) :
    auctionTypeFromCode (auctionTypeCode auctionType) = .ok auctionType := by
  cases auctionType <;> rfl

theorem percentCode_ok (percent : FillPercent) : percentCode percent = .ok percent.get :=
  if_pos (percent.le_hundred.trans_lt (by decide))

theorem percent_back (percent : FillPercent) : percentFromCode percent.get = .ok percent := by
  have hcolumn : ledgerColumn percent.get "percent" = .ok percent.get :=
    ledgerColumn_ok_iff.2 ⟨rfl, percent.le_hundred.trans (by decide)⟩
  rw [percentFromCode, bind_ok_iff]
  refine ⟨_, hcolumn, ?_⟩
  rw [FillPercent.tryFrom, dif_pos ⟨percent.one_le, percent.le_hundred⟩]

/-! ## Rows read back -/

/-- A borrower whose numbers are of the types the code has them in. -/
structure TrackedUser.Fits (user : TrackedUser) : Prop where
  healthFactor : FitsI128 user.healthFactor
  collateral : IndexedFit user.collateral
  liabilities : IndexedFit user.liabilities
  updatedLedger : user.updatedLedger ≤ u32Max
  recheckLedger : ∀ ledger ∈ user.recheckLedger, ledger ≤ u32Max

structure TrackedAuction.Fits (auction : TrackedAuction) : Prop where
  startLedger : auction.startLedger ≤ u32Max
  fillLedger : ∀ ledger ∈ auction.fillLedger, ledger ≤ u32Max
  bid : AmountsFit auction.bid
  lot : AmountsFit auction.lot
  updatedLedger : auction.updatedLedger ≤ u32Max

theorem toUser_fits {row : UserRow} {user : TrackedUser} (h : row.toUser = .ok user) : user.Fits := by
  simp only [UserRow.toUser, bind_ok_iff, pure_ok_iff] at h
  obtain ⟨_, hhealth, _, hcollateral, _, hliabilities, _, hupdated, _, hrecheck, rfl⟩ := h
  obtain ⟨_, -, hparsed⟩ := decimalColumn_ok_iff.1 hhealth
  exact ⟨parseI128_fits hparsed, indexAmounts_fit hcollateral, indexAmounts_fit hliabilities,
    (ledgerColumn_ok_iff.1 hupdated).2, optionalLedger_fits hrecheck⟩

theorem toUser_ofUser {user : TrackedUser} (h : user.Fits) : (UserRow.ofUser user).toUser = .ok user := by
  simp only [UserRow.toUser, bind_ok_iff, pure_ok_iff]
  exact ⟨_, decimalColumn_ok_iff.2 ⟨_, rfl, parseI128_toString h.healthFactor⟩, _, indexAmounts_back h.collateral _, _,
    indexAmounts_back h.liabilities _, _, ledgerColumn_ok_iff.2 ⟨rfl, h.updatedLedger⟩, _,
    optionalLedger_back.2 h.recheckLedger, rfl⟩

theorem toAuction_fits {row : AuctionRow} {auction : TrackedAuction} (h : row.toAuction = .ok auction) : auction.Fits := by
  simp only [AuctionRow.toAuction, bind_ok_iff, pure_ok_iff] at h
  obtain ⟨_, -, _, hstart, _, hfill, _, -, _, hbid, _, hlot, _, hupdated, rfl⟩ := h
  exact ⟨(ledgerColumn_ok_iff.1 hstart).2, optionalLedger_fits hfill, assetAmounts_fit hbid, assetAmounts_fit hlot,
    (ledgerColumn_ok_iff.1 hupdated).2⟩

theorem toAuction_ofAuction {auction : TrackedAuction} (h : auction.Fits) :
    AuctionRow.ofAuction auction >>= AuctionRow.toAuction = .ok auction := by
  have hwritten : ∃ code, optionalColumn percentCode auction.percent = .ok code ∧
      optionalColumn percentFromCode code = .ok auction.percent := by
    cases hpercent : auction.percent with
    | none => exact ⟨none, rfl, rfl⟩
    | some percent =>
      exact ⟨some percent.get, optionalColumn_ok_iff.2 (.inr ⟨percent, _, rfl, percentCode_ok percent, rfl⟩),
        optionalColumn_ok_iff.2 (.inr ⟨_, percent, rfl, percent_back percent, rfl⟩)⟩
  obtain ⟨code, hcode, hread⟩ := hwritten
  simp only [AuctionRow.ofAuction, AuctionRow.toAuction, bind_ok_iff, pure_ok_iff]
  exact ⟨_, ⟨code, hcode, rfl⟩, _, auctionType_back _, _, ledgerColumn_ok_iff.2 ⟨rfl, h.startLedger⟩, _,
    optionalLedger_back.2 h.fillLedger, _, hread, _, assetAmounts_back h.bid _, _, assetAmounts_back h.lot _, _,
    ledgerColumn_ok_iff.2 ⟨rfl, h.updatedLedger⟩, rfl⟩

/-- What is written is what is read, to the last digit, beside the recheck column,
which a write of a borrower leaves as it stands; and a row is never read as what
the types exclude. -/
theorem rows_read_back :
    (∀ user : TrackedUser, (UserRow.ofUser user).toUser = .ok user ↔ user.Fits) ∧
      (∀ (row : UserRow) (user : TrackedUser), row.toUser = .ok user → user.Fits) ∧
      (∀ auction : TrackedAuction, AuctionRow.ofAuction auction >>= AuctionRow.toAuction = .ok auction ↔ auction.Fits) ∧
      ∀ (row : AuctionRow) (auction : TrackedAuction), row.toAuction = .ok auction → auction.Fits := by
  refine ⟨fun user => ⟨toUser_fits, toUser_ofUser⟩, fun row user => toUser_fits, fun auction => ?_,
    fun row auction => toAuction_fits⟩
  refine ⟨fun h => ?_, toAuction_ofAuction⟩
  obtain ⟨row, -, hread⟩ := bind_ok_iff.1 h
  exact toAuction_fits hread

end BlendLiquidator
