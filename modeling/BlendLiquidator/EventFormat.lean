/-
The pool's events as the contract writes them, against what `decodePoolEvent`
reads back.

`Carries` says of each event which topics and which data hold it, in the
format's own terms: an amount is its two halves' number, a struct is its
fields by name. `decodePoolEvent_ok_iff` is the whole decoder against it, one
event at a time; the encoder (`PoolEvent.topics`, `PoolEvent.value`) writes
what carries its event, so that decoding it is one case of that.
-/
import BlendLiquidator.Events
import BlendLiquidator.Fill
import BlendLiquidator.FixedFacts
import BlendLiquidator.TreeMaps

namespace BlendLiquidator

open Results TreeMaps

/-! ## The format -/

/-- `value` holds the amount: a signed high half and an unsigned low one. -/
def CarriesAmount (value : ScVal) (amount : Int) : Prop :=
  ∃ hi lo, value = .i128 hi lo ∧ amount = hi.toInt * 2 ^ 64 + lo.toNat

/-- Every entry is an amount under an address; of two under one address the
later holds. -/
def CarriesSide (value : ScVal) (side : BTreeMap String Int) : Prop :=
  ∃ entries, value = .map entries ∧
    (∀ entry ∈ entries.toList, ∃ asset amount, entry.1 = .address asset ∧ CarriesAmount entry.2 amount) ∧
    ∀ asset amount, side[asset]? = some amount ↔
      ∃ held, lastAt entries.toList (.address asset) = some held ∧ CarriesAmount held amount

/-- Every field has a symbol for its name; those of another name are not
read, and of two of one name the later holds. -/
def CarriesAuction (value : ScVal) (auction : AuctionData) : Prop :=
  ∃ entries, value = .map entries ∧ (∀ entry ∈ entries.toList, ∃ name, entry.1 = .symbol name) ∧
    (∃ bid, lastAt entries.toList (.symbol "bid") = some bid ∧ CarriesSide bid auction.bid) ∧
    (∃ lot, lastAt entries.toList (.symbol "lot") = some lot ∧ CarriesSide lot auction.lot) ∧
    ∃ block, lastAt entries.toList (.symbol "block") = some (.u32 block) ∧ auction.block = block.toNat

/-- Two amounts, in a vector of two. -/
def CarriesPair (value : ScVal) (first second : Int) : Prop :=
  ∃ x y, value = .vec (.ofList [x, y]) ∧ CarriesAmount x first ∧ CarriesAmount y second

/-- The topics and the data that hold an event. -/
def Carries (topics : List ScVal) (value : ScVal) : PoolEvent → Prop
  | .supply asset sender amount bTokens =>
    topics = [.symbol "supply", .address asset, .address sender] ∧ CarriesPair value amount bTokens
  | .withdraw asset sender amount bTokens =>
    topics = [.symbol "withdraw", .address asset, .address sender] ∧ CarriesPair value amount bTokens
  | .supplyCollateral asset sender amount bTokens =>
    topics = [.symbol "supply_collateral", .address asset, .address sender] ∧ CarriesPair value amount bTokens
  | .withdrawCollateral asset sender amount bTokens =>
    topics = [.symbol "withdraw_collateral", .address asset, .address sender] ∧ CarriesPair value amount bTokens
  | .borrow asset sender amount dTokens =>
    topics = [.symbol "borrow", .address asset, .address sender] ∧ CarriesPair value amount dTokens
  | .repay asset sender amount dTokens =>
    topics = [.symbol "repay", .address asset, .address sender] ∧ CarriesPair value amount dTokens
  | .flashLoan asset sender contract amount dTokens =>
    topics = [.symbol "flash_loan", .address asset, .address sender, .address contract] ∧ CarriesPair value amount dTokens
  | .newAuction auctionType user percent auction =>
    topics = [.symbol "new_auction", .u32 (.ofNat auctionType.code), .address user] ∧
      ∃ held, value = .vec (.ofList [.u32 percent, held]) ∧ CarriesAuction held auction
  | .fillAuction auctionType user filler fillPercent filled =>
    topics = [.symbol "fill_auction", .u32 (.ofNat auctionType.code), .address user] ∧
      ∃ percent held, value = .vec (.ofList [.address filler, percent, held]) ∧
        CarriesAmount percent fillPercent ∧ CarriesAuction held filled
  | .deleteAuction auctionType user =>
    topics = [.symbol "delete_auction", .u32 (.ofNat auctionType.code), .address user] ∧ value = .void
  | .badDebt user asset dTokens =>
    topics = [.symbol "bad_debt", .address user, .address asset] ∧ CarriesAmount value dTokens
  | .defaultedDebt asset dTokens =>
    topics = [.symbol "defaulted_debt", .address asset] ∧ CarriesAmount value dTokens
  | .debtSetoff asset bTokensBurned dTokensRepaid =>
    topics = [.symbol "debt_setoff", .address asset] ∧ CarriesPair value bTokensBurned dTokensRepaid
  | .collateralOrphaned user asset bTokens =>
    topics = [.symbol "collateral_orphaned", .address user, .address asset] ∧ CarriesAmount value bTokens
  | .orphanSettled asset bTokens =>
    topics = [.symbol "orphan_settled", .address asset] ∧ CarriesAmount value bTokens
  | .setReserve asset index =>
    topics = [.symbol "set_reserve"] ∧ value = .vec (.ofList [.address asset, .u32 index])
  | .setStatus status =>
    -- the admin's event has a second topic, and the status is the data either way
    (topics = [.symbol "set_status"] ∨ ∃ second, topics = [.symbol "set_status", second]) ∧
      value = .u32 (.ofNat status.code)

def positionNames : List String :=
  ["supply", "withdraw", "supply_collateral", "withdraw_collateral", "borrow", "repay", "flash_loan"]

def auctionNames : List String := ["new_auction", "fill_auction", "delete_auction"]

def adminNames : List String :=
  ["bad_debt", "defaulted_debt", "debt_setoff", "collateral_orphaned", "orphan_settled", "set_reserve", "set_status"]

/-- The names the bot models. -/
def modelledNames : List String := positionNames ++ auctionNames ++ adminNames

/-! ## Values -/

theorem asI128_eq (hi : Int64) (lo : UInt64) : asI128 hi lo = hi.toInt * 2 ^ 64 + lo.toNat := by
  -- the shifted high half and the low half share no bit
  have happend : (hi.toBitVec.signExtend 128 <<< 64) ||| lo.toBitVec.zeroExtend 128 = hi.toBitVec ++ lo.toBitVec := by
    ext i hlt
    rw [BitVec.getElem_or, BitVec.getElem_shiftLeft, BitVec.getElem_append]
    by_cases hlow : i < 64
    · simp [hlow]
    · have hhigh : lo.toBitVec.getLsbD i = false := BitVec.getLsbD_of_ge _ _ (by omega)
      simp [hlow, BitVec.getElem_signExtend, show i - 64 < 64 by omega, hhigh]
  rw [asI128, happend, BitVec.toInt_append]
  simp [Int.mul_comm]

theorem asAddress_ok_iff {value : ScVal} {strkey : String} : asAddress value = .ok strkey ↔ value = .address strkey := by
  cases value <;> simp [asAddress]

theorem asU32_ok_iff {value : ScVal} {number : UInt32} : asU32 value = .ok number ↔ value = .u32 number := by
  cases value <;> simp [asU32]

theorem asAmount_ok_iff {value : ScVal} {amount : Int} : asAmount value = .ok amount ↔ CarriesAmount value amount := by
  cases value with
  | i128 hi lo => simp [asAmount, CarriesAmount, asI128_eq, eq_comm]
  | _ => simp [asAmount, CarriesAmount]

theorem AuctionType.tryFrom_ok_iff {value : UInt32} {auctionType : AuctionType} :
    AuctionType.tryFrom value = .ok auctionType ↔ value = .ofNat auctionType.code := by
  rw [← UInt32.toNat_inj]
  unfold AuctionType.tryFrom
  generalize value.toNat = number
  cases auctionType <;> simp only [AuctionType.code] <;> split <;> simp_all

theorem PoolStatus.tryFrom_ok_iff {value : UInt32} {status : PoolStatus} :
    PoolStatus.tryFrom value = .ok status ↔ value = .ofNat status.code := by
  rw [← UInt32.toNat_inj]
  unfold PoolStatus.tryFrom
  generalize value.toNat = number
  cases status <;> simp only [PoolStatus.code] <;> split <;> simp_all

theorem structFields_ok_iff {value : ScVal} {fields : BTreeMap String ScVal} :
    structFields value = .ok fields ↔ ∃ entries, value = .map entries ∧
      (∀ entry ∈ entries.toList, ∃ name, entry.1 = .symbol name) ∧
      ∀ name, fields[name]? = lastAt entries.toList (.symbol name) := by
  cases value with
  | map entries =>
    have hkey : Function.Injective ScVal.symbol := fun a b h => by injection h
    rw [structFields, foldlM_insert_ok_iff hkey some]
    · simp
    · rintro fields ⟨key, val⟩ fields'
      cases key <;> simp [eq_comm]
  | _ => simp [structFields]

theorem structFields_of_keys {entries : ScMap} (hkeys : ∀ entry ∈ entries.toList, ∃ name, entry.1 = .symbol name) :
    ∃ fields, structFields (.map entries) = .ok fields := by
  rw [structFields]
  generalize (∅ : BTreeMap String ScVal) = start
  generalize entries.toList = entries at hkeys
  induction entries generalizing start with
  | nil => exact ⟨start, rfl⟩
  | cons entry entries ih =>
    obtain ⟨key, val⟩ := entry
    obtain ⟨⟨name, hname⟩, hrest⟩ := List.forall_mem_cons.1 hkeys
    dsimp only at hname
    subst hname
    exact ih (start.insert name val) hrest

theorem field_ok_iff {fields : BTreeMap String ScVal} {name : String} {value : ScVal} :
    field fields name = .ok value ↔ fields[name]? = some value := by
  unfold field
  cases fields[name]? <;> simp

/-- The amount a value holds, if one. -/
def readAmount : ScVal → Option Int
  | .i128 hi lo => some (asI128 hi lo)
  | _ => none

theorem readAmount_eq_some_iff {value : ScVal} {amount : Int} :
    readAmount value = some amount ↔ CarriesAmount value amount := by
  rw [← asAmount_ok_iff]
  cases value <;> simp [readAmount, asAmount]

theorem addressMap_ok_iff {value : ScVal} {side : BTreeMap String Int} :
    addressMap value = .ok side ↔ CarriesSide value side := by
  cases value with
  | map entries =>
    have hkey : Function.Injective ScVal.address := fun a b h => by injection h
    rw [addressMap, foldlM_insert_ok_iff hkey readAmount]
    · have hlook : (∀ asset, side[asset]? = ((lastAt entries.toList (.address asset)).bind readAmount).or none) ↔
          ∀ asset amount, side[asset]? = some amount ↔
            ∃ held, lastAt entries.toList (.address asset) = some held ∧ CarriesAmount held amount := by
        refine forall_congr' fun asset => ?_
        simp only [Option.or_none, ← readAmount_eq_some_iff, ← Option.bind_eq_some_iff]
        exact Option.ext_iff
      simp only [CarriesSide, ScVal.map.injEq, exists_eq_left', ← hlook, readAmount_eq_some_iff]
      simp
    · rintro side ⟨key, val⟩ side'
      cases key <;> cases val <;> simp [readAmount, eq_comm]
  | _ => simp [addressMap, CarriesSide]

theorem auctionValue_ok_iff {value : ScVal} {auction : AuctionData} :
    auctionValue value = .ok auction ↔ CarriesAuction value auction := by
  obtain ⟨bid, lot, block⟩ := auction
  simp only [auctionValue, CarriesAuction, bind_ok_iff, structFields_ok_iff, field_ok_iff, addressMap_ok_iff, asU32_ok_iff,
    pure_ok_iff, AuctionData.mk.injEq]
  constructor
  · rintro ⟨fields, ⟨entries, rfl, hkeys, hfields⟩, bidValue, hbidAt, bid', hbid, lotValue, hlotAt, lot', hlot, blockValue,
      hblockAt, block', hblock, rfl, rfl, rfl⟩
    rw [hfields] at hbidAt hlotAt hblockAt
    exact ⟨entries, rfl, hkeys, ⟨bidValue, hbidAt, hbid⟩, ⟨lotValue, hlotAt, hlot⟩, block', hblock ▸ hblockAt, rfl⟩
  · rintro ⟨entries, rfl, hkeys, ⟨bidValue, hbidAt, hbid⟩, ⟨lotValue, hlotAt, hlot⟩, block', hblockAt, rfl⟩
    obtain ⟨fields, hread⟩ := structFields_of_keys hkeys
    obtain ⟨_, heq, -, hfields⟩ := structFields_ok_iff.1 hread
    obtain rfl := ScVal.map.inj heq
    rw [← hfields] at hbidAt hlotAt hblockAt
    exact ⟨fields, ⟨entries, rfl, hkeys, hfields⟩, bidValue, hbidAt, bid, hbid, lotValue, hlotAt, lot, hlot, _,
      hblockAt, block', rfl, rfl, rfl, rfl⟩

/-! ## Topics and data -/

theorem topic_ok_iff {topics : List ScVal} {index : Nat} {value : ScVal} :
    topic topics index = .ok value ↔ topics[index]? = some value := by
  unfold topic
  cases topics[index]? <;> simp

theorem requireTopics_ok_iff {topics : List ScVal} {expected : Nat} {message : String} {u : Unit} :
    requireTopics topics expected message = .ok u ↔ topics.length = expected := by
  unfold requireTopics
  split <;> simp_all

theorem data_ok_iff {value : ScVal} {expected : Nat} {items : Vector ScVal expected} :
    data value expected = .ok items ↔ value = .vec (.ofList items.toList) := by
  cases value with
  | vec held =>
    simp only [data, ScVal.vec.injEq]
    split
    · rename_i hlength
      constructor
      · intro h
        obtain rfl := Except.ok.inj h
        simp
      · rintro rfl
        congr 1
        apply Vector.toList_inj.1
        simp
    · rename_i hlength
      simp only [reduceCtorEq, false_iff]
      rintro rfl
      simp at hlength
  | _ => simp [data]

theorem exists_two {α : Type} {p : Vector α 2 → Prop} : (∃ items, p items) ↔ ∃ x y, p #v[x, y] := by
  constructor
  · rintro ⟨items, h⟩
    refine ⟨items[0], items[1], ?_⟩
    have heq : items = #v[items[0], items[1]] := by
      ext i hi
      rcases i with _ | _ | i
      · rfl
      · rfl
      · omega
    rwa [← heq]
  · rintro ⟨x, y, h⟩
    exact ⟨_, h⟩

theorem exists_three {α : Type} {p : Vector α 3 → Prop} : (∃ items, p items) ↔ ∃ x y z, p #v[x, y, z] := by
  constructor
  · rintro ⟨items, h⟩
    refine ⟨items[0], items[1], items[2], ?_⟩
    have heq : items = #v[items[0], items[1], items[2]] := by
      ext i hi
      rcases i with _ | _ | _ | i
      · rfl
      · rfl
      · rfl
      · omega
    rwa [← heq]
  · rintro ⟨x, y, z, h⟩
    exact ⟨_, h⟩

/-! ## Events -/

section Events

variable {name : String} {rest : List ScVal} {value first second third : ScVal} {event : PoolEvent}

theorem rest_one (hlength : (value :: rest).length = 2) (hfirst : (value :: rest)[1]? = some first) : rest = [first] := by
  match rest, hlength with
  | [_], _ => simpa using hfirst

theorem rest_two (hlength : (value :: rest).length = 3) (hfirst : (value :: rest)[1]? = some first)
    (hsecond : (value :: rest)[2]? = some second) : rest = [first, second] := by
  match rest, hlength with
  | [_, _], _ => simpa using And.intro hfirst hsecond

theorem rest_three (hlength : (value :: rest).length = 4) (hfirst : (value :: rest)[1]? = some first)
    (hsecond : (value :: rest)[2]? = some second) (hthird : (value :: rest)[3]? = some third) :
    rest = [first, second, third] := by
  match rest, hlength with
  | [_, _, _], _ => simpa using And.intro hfirst (And.intro hsecond hthird)

theorem twoSided_carries {message : String} {make : String → String → Int → Int → PoolEvent}
    (h : twoSided (.symbol name :: rest) value message make = .ok (some event)) :
    ∃ asset sender amount tokens, rest = [.address asset, .address sender] ∧ CarriesPair value amount tokens ∧
      make asset sender amount tokens = event := by
  simp only [twoSided, bind_ok_iff, pure_ok_iff, requireTopics_ok_iff, topic_ok_iff, asAddress_ok_iff, data_ok_iff,
    asAmount_ok_iff, exists_two] at h
  obtain ⟨-, hlength, _, hasset, asset, rfl, _, hsender, sender, rfl, x, y, hvalue, amount, hx, tokens, hy, hevent⟩ := h
  exact ⟨asset, sender, amount, tokens, rest_two hlength hasset hsender, ⟨x, y, hvalue, hx, hy⟩, Option.some.inj hevent⟩

theorem decodePositionEvent_carries (h : decodePositionEvent name (.symbol name :: rest) value = .ok (some event)) :
    Carries (.symbol name :: rest) value event := by
  unfold decodePositionEvent at h
  split at h
  case h_8 => cases h
  case h_7 =>
    simp only [bind_ok_iff, pure_ok_iff, requireTopics_ok_iff, topic_ok_iff, asAddress_ok_iff, data_ok_iff,
      asAmount_ok_iff, exists_two] at h
    obtain ⟨-, hlength, x, y, hvalue, _, hasset, asset, rfl, _, hsender, sender, rfl, _, hcontract, contract, rfl, amount, hx,
      tokens, hy, hevent⟩ := h
    obtain rfl := Option.some.inj hevent
    rw [rest_three hlength hasset hsender hcontract]
    exact ⟨rfl, x, y, hvalue, hx, hy⟩
  all_goals
    obtain ⟨asset, sender, amount, tokens, rfl, hpair, rfl⟩ := twoSided_carries h
    exact ⟨rfl, hpair⟩

theorem decodeAuctionEvent_carries (h : decodeAuctionEvent name (.symbol name :: rest) value = .ok (some event)) :
    Carries (.symbol name :: rest) value event := by
  unfold decodeAuctionEvent at h
  split at h
  case h_1 =>
    simp only [bind_ok_iff, pure_ok_iff, requireTopics_ok_iff, topic_ok_iff, asAddress_ok_iff, data_ok_iff, asU32_ok_iff,
      AuctionType.tryFrom_ok_iff, auctionValue_ok_iff, exists_two] at h
    obtain ⟨-, hlength, x, y, hvalue, _, htype, _, rfl, auctionType, rfl, _, huser, user, rfl, percent, hx, auction, hy,
      hevent⟩ := h
    obtain rfl := Option.some.inj hevent
    obtain rfl : x = .u32 percent := hx
    rw [rest_two hlength htype huser]
    exact ⟨rfl, y, hvalue, hy⟩
  case h_2 =>
    simp only [bind_ok_iff, pure_ok_iff, requireTopics_ok_iff, topic_ok_iff, asAddress_ok_iff, data_ok_iff, asU32_ok_iff,
      AuctionType.tryFrom_ok_iff, auctionValue_ok_iff, asAmount_ok_iff, exists_three] at h
    obtain ⟨-, hlength, x, y, z, hvalue, _, htype, _, rfl, auctionType, rfl, _, huser, user, rfl, filler, hx, percent, hy,
      filled, hz, hevent⟩ := h
    obtain rfl := Option.some.inj hevent
    obtain rfl : x = .address filler := hx
    rw [rest_two hlength htype huser]
    exact ⟨rfl, y, z, hvalue, hy, hz⟩
  case h_3 =>
    simp only [bind_ok_iff, requireTopics_ok_iff] at h
    obtain ⟨-, hlength, h⟩ := h
    cases value with
    | void =>
      simp only [bind_ok_iff, pure_ok_iff, topic_ok_iff, asAddress_ok_iff, asU32_ok_iff, AuctionType.tryFrom_ok_iff] at h
      obtain ⟨_, htype, _, rfl, auctionType, rfl, _, huser, user, rfl, hevent⟩ := h
      obtain rfl := Option.some.inj hevent
      rw [rest_two hlength htype huser]
      exact ⟨rfl, rfl⟩
    | _ => cases h
  case h_4 => cases h

theorem decodeAdminEvent_carries (h : decodeAdminEvent name (.symbol name :: rest) value = .ok (some event)) :
    Carries (.symbol name :: rest) value event := by
  unfold decodeAdminEvent at h
  split at h
  case h_1 | h_4 =>
    simp only [bind_ok_iff, pure_ok_iff, requireTopics_ok_iff, topic_ok_iff, asAddress_ok_iff, asAmount_ok_iff] at h
    obtain ⟨-, hlength, _, huser, user, rfl, _, hasset, asset, rfl, tokens, hvalue, hevent⟩ := h
    obtain rfl := Option.some.inj hevent
    rw [rest_two hlength huser hasset]
    exact ⟨rfl, hvalue⟩
  case h_2 | h_5 =>
    simp only [bind_ok_iff, pure_ok_iff, requireTopics_ok_iff, topic_ok_iff, asAddress_ok_iff, asAmount_ok_iff] at h
    obtain ⟨-, hlength, _, hasset, asset, rfl, tokens, hvalue, hevent⟩ := h
    obtain rfl := Option.some.inj hevent
    rw [rest_one hlength hasset]
    exact ⟨rfl, hvalue⟩
  case h_3 =>
    simp only [bind_ok_iff, pure_ok_iff, requireTopics_ok_iff, topic_ok_iff, asAddress_ok_iff, data_ok_iff, asAmount_ok_iff,
      exists_two] at h
    obtain ⟨-, hlength, x, y, hvalue, _, hasset, asset, rfl, burned, hx, repaid, hy, hevent⟩ := h
    obtain rfl := Option.some.inj hevent
    rw [rest_one hlength hasset]
    exact ⟨rfl, x, y, hvalue, hx, hy⟩
  case h_6 =>
    simp only [bind_ok_iff, pure_ok_iff, requireTopics_ok_iff, data_ok_iff, asAddress_ok_iff, asU32_ok_iff, exists_two] at h
    obtain ⟨-, hlength, x, y, hvalue, asset, hx, index, hy, hevent⟩ := h
    obtain rfl := Option.some.inj hevent
    obtain rfl : x = .address asset := hx
    obtain rfl : y = .u32 index := hy
    obtain rfl : rest = [] := by simpa using hlength
    exact ⟨rfl, hvalue⟩
  case h_7 =>
    split at h
    · rename_i hlength
      simp only [bind_ok_iff, pure_ok_iff, asU32_ok_iff, PoolStatus.tryFrom_ok_iff] at h
      obtain ⟨_, rfl, status, rfl, hevent⟩ := h
      obtain rfl := Option.some.inj hevent
      refine ⟨?_, rfl⟩
      rcases rest with _ | ⟨second, _ | ⟨third, rest⟩⟩
      · exact .inl rfl
      · exact .inr ⟨second, rfl⟩
      · simp at hlength
    · cases h
  case h_8 => cases h

theorem data_two (x y : ScVal) : data (.vec (.ofList [x, y])) 2 = .ok #v[x, y] := data_ok_iff.2 rfl

theorem data_three (x y z : ScVal) : data (.vec (.ofList [x, y, z])) 3 = .ok #v[x, y, z] := data_ok_iff.2 rfl

theorem twoSided_of_carries {message asset sender : String} {make : String → String → Int → Int → PoolEvent}
    {amount tokens : Int} (h : CarriesPair value amount tokens) :
    twoSided [first, .address asset, .address sender] value message make = .ok (some (make asset sender amount tokens)) := by
  obtain ⟨x, y, rfl, hx, hy⟩ := h
  simp only [twoSided, bind_ok_iff, requireTopics_ok_iff, topic_ok_iff, asAddress_ok_iff, asAmount_ok_iff, pure_ok_iff]
  exact ⟨(), rfl, _, rfl, asset, rfl, _, rfl, sender, rfl, _, data_two x y, amount, hx, tokens, hy, rfl⟩

/-! ## Names

Each decoder leaves the names that are not its own to the next. -/

theorem decodePositionEvent_none_iff {topics : List ScVal} :
    decodePositionEvent name topics value = .ok none ↔ name ∉ positionNames := by
  unfold decodePositionEvent
  split <;> simp_all [positionNames, twoSided, bind_ok_iff, map_ok_iff]

theorem decodeAuctionEvent_none_iff {topics : List ScVal} :
    decodeAuctionEvent name topics value = .ok none ↔ name ∉ auctionNames := by
  unfold decodeAuctionEvent
  split
  case h_3 =>
    cases value <;> simp [auctionNames, bind_ok_iff, map_ok_iff]
  all_goals simp_all [auctionNames, bind_ok_iff, map_ok_iff]

theorem decodeAdminEvent_none_iff {topics : List ScVal} :
    decodeAdminEvent name topics value = .ok none ↔ name ∉ adminNames := by
  unfold decodeAdminEvent
  split <;> simp_all [adminNames, bind_ok_iff, map_ok_iff, ite_ok_iff]

theorem decodePoolEvent_position (hname : name ∈ positionNames) :
    decodePoolEvent (.symbol name :: rest) value = decodePositionEvent name (.symbol name :: rest) value := by
  simp only [decodePoolEvent, List.head?_cons]
  match h : decodePositionEvent name (.symbol name :: rest) value with
  | .error error => rfl
  | .ok (some event) => rfl
  | .ok none => exact absurd hname (decodePositionEvent_none_iff.1 h)

theorem decodePoolEvent_auction (hposition : name ∉ positionNames) (hname : name ∈ auctionNames) :
    decodePoolEvent (.symbol name :: rest) value = decodeAuctionEvent name (.symbol name :: rest) value := by
  simp only [decodePoolEvent, List.head?_cons, decodePositionEvent_none_iff.2 hposition]
  match h : decodeAuctionEvent name (.symbol name :: rest) value with
  | .error error => rfl
  | .ok (some event) => rfl
  | .ok none => exact absurd hname (decodeAuctionEvent_none_iff.1 h)

theorem decodePoolEvent_admin (hposition : name ∉ positionNames) (hauction : name ∉ auctionNames) :
    decodePoolEvent (.symbol name :: rest) value = decodeAdminEvent name (.symbol name :: rest) value := by
  simp only [decodePoolEvent, List.head?_cons, decodePositionEvent_none_iff.2 hposition,
    decodeAuctionEvent_none_iff.2 hauction]
  rfl

theorem decodePoolEvent_of_carries {topics : List ScVal} (h : Carries topics value event) :
    decodePoolEvent topics value = .ok (some event) := by
  cases event with
  | supply asset sender amount tokens | withdraw asset sender amount tokens | supplyCollateral asset sender amount tokens
  | withdrawCollateral asset sender amount tokens | borrow asset sender amount tokens | repay asset sender amount tokens =>
    obtain ⟨rfl, hpair⟩ := h
    rw [decodePoolEvent_position (by decide)]
    exact twoSided_of_carries hpair
  | flashLoan asset sender contract amount tokens =>
    obtain ⟨rfl, x, y, rfl, hx, hy⟩ := h
    rw [decodePoolEvent_position (by decide)]
    simp only [decodePositionEvent, bind_ok_iff, requireTopics_ok_iff, topic_ok_iff, asAddress_ok_iff, asAmount_ok_iff,
      pure_ok_iff]
    exact ⟨(), rfl, _, data_two x y, _, rfl, asset, rfl, _, rfl, sender, rfl, _, rfl, contract, rfl, amount, hx,
      tokens, hy, rfl⟩
  | newAuction auctionType user percent auction =>
    obtain ⟨rfl, held, rfl, hauction⟩ := h
    rw [decodePoolEvent_auction (by decide) (by decide)]
    simp only [decodeAuctionEvent, bind_ok_iff, requireTopics_ok_iff, topic_ok_iff, asAddress_ok_iff, asU32_ok_iff,
      AuctionType.tryFrom_ok_iff, auctionValue_ok_iff, pure_ok_iff]
    exact ⟨(), rfl, _, data_two _ held, _, rfl, _, rfl, auctionType, rfl, _, rfl, user, rfl, percent, rfl,
      auction, hauction, rfl⟩
  | fillAuction auctionType user filler fillPercent filled =>
    obtain ⟨rfl, percent, held, rfl, hpercent, hfilled⟩ := h
    rw [decodePoolEvent_auction (by decide) (by decide)]
    simp only [decodeAuctionEvent, bind_ok_iff, requireTopics_ok_iff, topic_ok_iff, asAddress_ok_iff, asU32_ok_iff,
      AuctionType.tryFrom_ok_iff, asAmount_ok_iff, auctionValue_ok_iff, pure_ok_iff]
    exact ⟨(), rfl, _, data_three _ percent held, _, rfl, _, rfl, auctionType, rfl, _, rfl, user, rfl, filler, rfl,
      fillPercent, hpercent, filled, hfilled, rfl⟩
  | deleteAuction auctionType user =>
    obtain ⟨rfl, rfl⟩ := h
    rw [decodePoolEvent_auction (by decide) (by decide)]
    simp only [decodeAuctionEvent, bind_ok_iff, requireTopics_ok_iff, topic_ok_iff, asAddress_ok_iff, asU32_ok_iff,
      AuctionType.tryFrom_ok_iff, pure_ok_iff]
    exact ⟨(), rfl, _, rfl, _, rfl, auctionType, rfl, _, rfl, user, rfl, rfl⟩
  | badDebt user asset tokens | collateralOrphaned user asset tokens =>
    obtain ⟨rfl, hvalue⟩ := h
    rw [decodePoolEvent_admin (by decide) (by decide)]
    simp only [decodeAdminEvent, bind_ok_iff, requireTopics_ok_iff, topic_ok_iff, asAddress_ok_iff, asAmount_ok_iff,
      pure_ok_iff]
    exact ⟨(), rfl, _, rfl, user, rfl, _, rfl, asset, rfl, tokens, hvalue, rfl⟩
  | defaultedDebt asset tokens | orphanSettled asset tokens =>
    obtain ⟨rfl, hvalue⟩ := h
    rw [decodePoolEvent_admin (by decide) (by decide)]
    simp only [decodeAdminEvent, bind_ok_iff, requireTopics_ok_iff, topic_ok_iff, asAddress_ok_iff, asAmount_ok_iff,
      pure_ok_iff]
    exact ⟨(), rfl, _, rfl, asset, rfl, tokens, hvalue, rfl⟩
  | debtSetoff asset burned repaid =>
    obtain ⟨rfl, x, y, rfl, hx, hy⟩ := h
    rw [decodePoolEvent_admin (by decide) (by decide)]
    simp only [decodeAdminEvent, bind_ok_iff, requireTopics_ok_iff, topic_ok_iff, asAddress_ok_iff, asAmount_ok_iff,
      pure_ok_iff]
    exact ⟨(), rfl, _, data_two x y, _, rfl, asset, rfl, burned, hx, repaid, hy, rfl⟩
  | setReserve asset index =>
    obtain ⟨rfl, rfl⟩ := h
    rw [decodePoolEvent_admin (by decide) (by decide)]
    simp only [decodeAdminEvent, bind_ok_iff, requireTopics_ok_iff, asAddress_ok_iff, asU32_ok_iff, pure_ok_iff]
    exact ⟨(), rfl, _, data_two _ _, asset, rfl, index, rfl, rfl⟩
  | setStatus status =>
    obtain ⟨htopics, rfl⟩ := h
    have hstatus : PoolStatus.tryFrom (.ofNat status.code) = .ok status := PoolStatus.tryFrom_ok_iff.2 rfl
    rcases htopics with rfl | ⟨second, rfl⟩
    · rw [decodePoolEvent_admin (by decide) (by decide)]
      simp only [decodeAdminEvent, ite_ok_iff, bind_ok_iff, asU32_ok_iff, pure_ok_iff]
      exact .inl ⟨.inl rfl, _, rfl, status, hstatus, rfl⟩
    · rw [decodePoolEvent_admin (by decide) (by decide)]
      simp only [decodeAdminEvent, ite_ok_iff, bind_ok_iff, asU32_ok_iff, pure_ok_iff]
      exact .inl ⟨.inr rfl, _, rfl, status, hstatus, rfl⟩

theorem decodePoolEvent_ok_iff {topics : List ScVal} :
    decodePoolEvent topics value = .ok (some event) ↔ Carries topics value event := by
  refine ⟨fun h => ?_, decodePoolEvent_of_carries⟩
  match topics with
  | [] => cases h
  | .symbol name :: rest =>
    by_cases hposition : name ∈ positionNames
    · rw [decodePoolEvent_position hposition] at h
      exact decodePositionEvent_carries h
    by_cases hauction : name ∈ auctionNames
    · rw [decodePoolEvent_auction hposition hauction] at h
      exact decodeAuctionEvent_carries h
    · rw [decodePoolEvent_admin hposition hauction] at h
      exact decodeAdminEvent_carries h
  | .void :: _ | .bool _ :: _ | .u32 _ :: _ | .u64 _ :: _ | .i128 _ _ :: _ | .address _ :: _ | .vec _ :: _ | .vecNone :: _
  | .map _ :: _ | .mapNone :: _ | .other _ :: _ => cases h

/-- Its first topic names an event the bot models. -/
def Modelled (topics : List ScVal) : Prop := ∃ name ∈ modelledNames, topics.head? = some (.symbol name)

theorem decodePoolEvent_none_iff {topics : List ScVal} : decodePoolEvent topics value = .ok none ↔ ¬Modelled topics := by
  match topics with
  | [] => simp [decodePoolEvent, Modelled]
  | .symbol name :: rest =>
    have hmodelled : Modelled (.symbol name :: rest) ↔ name ∈ modelledNames := by simp [Modelled]
    rw [hmodelled, modelledNames, List.mem_append, List.mem_append]
    by_cases hposition : name ∈ positionNames
    · rw [decodePoolEvent_position hposition, decodePositionEvent_none_iff]
      simp [hposition]
    by_cases hauction : name ∈ auctionNames
    · rw [decodePoolEvent_auction hposition hauction, decodeAuctionEvent_none_iff]
      simp [hauction]
    · rw [decodePoolEvent_admin hposition hauction, decodeAdminEvent_none_iff]
      simp [hposition, hauction]
  | .void :: _ | .bool _ :: _ | .u32 _ :: _ | .u64 _ :: _ | .i128 _ _ :: _ | .address _ :: _ | .vec _ :: _ | .vecNone :: _
  | .map _ :: _ | .mapNone :: _ | .other _ :: _ => simp [decodePoolEvent, Modelled]

end Events

/-! ## The encoder -/

/-- An `i128` as the XDR library splits it. -/
def i128Val (value : Int) : ScVal := .i128 (.ofInt (value / 2 ^ 64)) (.ofNat (value % 2 ^ 64).toNat)

theorem carriesAmount_i128Val {amount : Int} (h : FitsI128 amount) : CarriesAmount (i128Val amount) amount := by
  obtain ⟨hmin, hmax⟩ := h
  simp only [i128Min, i128Max] at hmin hmax
  refine ⟨_, _, rfl, ?_⟩
  have hhi : (Int64.ofInt (amount / 2 ^ 64)).toInt = amount / 2 ^ 64 := by
    apply Int64.toInt_ofInt_of_le <;> omega
  have hlo : (UInt64.ofNat (amount % 2 ^ 64).toNat).toNat = (amount % 2 ^ 64).toNat := by
    apply UInt64.toNat_ofNat_of_lt'
    simp only [UInt64.size]
    omega
  rw [hhi, hlo]
  omega

theorem CarriesAmount.unique {value : ScVal} {amount found : Int} (h : CarriesAmount value amount)
    (hfound : CarriesAmount value found) : amount = found := by
  rw [← asAmount_ok_iff] at h hfound
  exact Except.ok.inj (h.symm.trans hfound)

section Encoder

-- `ScMap::sorted_from`: the order the host requires of a map
variable (sorted : List (ScVal × ScVal) → List (ScVal × ScVal))

def sideVal (side : BTreeMap String Int) : ScVal :=
  .map (.ofList (sorted (side.toList.map fun entry => (.address entry.1, i128Val entry.2))))

def auctionVal (auction : AuctionData) : ScVal :=
  .map (.ofList (sorted [(.symbol "bid", sideVal sorted auction.bid), (.symbol "block", .u32 (.ofNat auction.block)),
    (.symbol "lot", sideVal sorted auction.lot)]))

/-- The admin's `set_status` adds a topic of its own. -/
def PoolEvent.topics (admin : Option ScVal) : PoolEvent → List ScVal
  | .supply asset sender _ _ => [.symbol "supply", .address asset, .address sender]
  | .withdraw asset sender _ _ => [.symbol "withdraw", .address asset, .address sender]
  | .supplyCollateral asset sender _ _ => [.symbol "supply_collateral", .address asset, .address sender]
  | .withdrawCollateral asset sender _ _ => [.symbol "withdraw_collateral", .address asset, .address sender]
  | .borrow asset sender _ _ => [.symbol "borrow", .address asset, .address sender]
  | .repay asset sender _ _ => [.symbol "repay", .address asset, .address sender]
  | .flashLoan asset sender contract _ _ =>
    [.symbol "flash_loan", .address asset, .address sender, .address contract]
  | .newAuction auctionType user _ _ => [.symbol "new_auction", .u32 (.ofNat auctionType.code), .address user]
  | .fillAuction auctionType user _ _ _ => [.symbol "fill_auction", .u32 (.ofNat auctionType.code), .address user]
  | .deleteAuction auctionType user => [.symbol "delete_auction", .u32 (.ofNat auctionType.code), .address user]
  | .badDebt user asset _ => [.symbol "bad_debt", .address user, .address asset]
  | .defaultedDebt asset _ => [.symbol "defaulted_debt", .address asset]
  | .debtSetoff asset _ _ => [.symbol "debt_setoff", .address asset]
  | .collateralOrphaned user asset _ => [.symbol "collateral_orphaned", .address user, .address asset]
  | .orphanSettled asset _ => [.symbol "orphan_settled", .address asset]
  | .setReserve _ _ => [.symbol "set_reserve"]
  | .setStatus _ => .symbol "set_status" :: admin.toList

def PoolEvent.value : PoolEvent → ScVal
  | .supply _ _ amount tokens | .withdraw _ _ amount tokens | .supplyCollateral _ _ amount tokens
  | .withdrawCollateral _ _ amount tokens | .borrow _ _ amount tokens | .repay _ _ amount tokens
  | .flashLoan _ _ _ amount tokens | .debtSetoff _ amount tokens => .vec (.ofList [i128Val amount, i128Val tokens])
  | .newAuction _ _ percent auction => .vec (.ofList [.u32 percent, auctionVal sorted auction])
  | .fillAuction _ _ filler fillPercent filled =>
    .vec (.ofList [.address filler, i128Val fillPercent, auctionVal sorted filled])
  | .deleteAuction _ _ => .void
  | .badDebt _ _ tokens | .defaultedDebt _ tokens | .collateralOrphaned _ _ tokens | .orphanSettled _ tokens => i128Val tokens
  | .setReserve asset index => .vec (.ofList [.address asset, .u32 index])
  | .setStatus status => .u32 (.ofNat status.code)

def SideFits (side : BTreeMap String Int) : Prop :=
  ∀ (asset : String) (amount : Int), side[asset]? = some amount → FitsI128 amount

/-- Its amounts are `i128`s and its block a `u32`. -/
def AuctionData.Fits (auction : AuctionData) : Prop :=
  SideFits auction.bid ∧ SideFits auction.lot ∧ auction.block ≤ u32Max

/-- Every number of the event is one of its field's type. -/
def PoolEvent.Fits : PoolEvent → Prop
  | .supply _ _ amount tokens | .withdraw _ _ amount tokens | .supplyCollateral _ _ amount tokens
  | .withdrawCollateral _ _ amount tokens | .borrow _ _ amount tokens | .repay _ _ amount tokens
  | .flashLoan _ _ _ amount tokens | .debtSetoff _ amount tokens => FitsI128 amount ∧ FitsI128 tokens
  | .newAuction _ _ _ auction => auction.Fits
  | .fillAuction _ _ _ fillPercent filled => FitsI128 fillPercent ∧ filled.Fits
  | .badDebt _ _ tokens | .defaultedDebt _ tokens | .collateralOrphaned _ _ tokens | .orphanSettled _ tokens =>
    FitsI128 tokens
  | .deleteAuction _ _ | .setReserve _ _ | .setStatus _ => True

variable {sorted : List (ScVal × ScVal) → List (ScVal × ScVal)} (hsorted : ∀ entries, (sorted entries).Perm entries)

include hsorted

/-- In entries of distinct keys the order says nothing. -/
theorem lastAt_sorted {entries : List (ScVal × ScVal)} (hnd : (entries.map Prod.fst).Nodup) {key value : ScVal} :
    lastAt (sorted entries) key = some value ↔ (key, value) ∈ entries := by
  have hperm := hsorted entries
  rw [← hperm.mem_iff]
  exact ⟨mem_of_lastAt, lastAt_of_mem ((hperm.map Prod.fst).nodup_iff.2 hnd)⟩

theorem carriesSide_sideVal {side : BTreeMap String Int} (hfits : SideFits side) :
    CarriesSide (sideVal sorted side) side := by
  have hnd : ((side.toList.map fun entry => (ScVal.address entry.1, i128Val entry.2)).map Prod.fst).Nodup := by
    have hkeys : (side.toList.map fun entry => (ScVal.address entry.1, i128Val entry.2)).map Prod.fst =
        side.keys.map ScVal.address := by
      rw [← Std.ExtTreeMap.map_fst_toList_eq_keys, List.map_map, List.map_map]
      rfl
    rw [hkeys]
    exact (nodup_keys side).map fun _ _ h => ScVal.address.inj h
  refine ⟨_, rfl, ?_, ?_⟩
  · intro entry hentry
    rw [ScMap.toList_ofList, (hsorted _).mem_iff, List.mem_map] at hentry
    obtain ⟨⟨asset, amount⟩, hin, rfl⟩ := hentry
    have hheld := Std.ExtTreeMap.mem_toList_iff_getElem?_eq_some.1 hin
    exact ⟨asset, amount, rfl, carriesAmount_i128Val (hfits asset amount hheld)⟩
  · intro asset amount
    simp only [ScMap.toList_ofList, lastAt_sorted hsorted hnd, List.mem_map, Prod.mk.injEq, Prod.exists,
      ScVal.address.injEq, Std.ExtTreeMap.mem_toList_iff_getElem?_eq_some]
    constructor
    · intro hheld
      exact ⟨_, ⟨asset, amount, hheld, rfl, rfl⟩, carriesAmount_i128Val (hfits asset amount hheld)⟩
    · rintro ⟨_, ⟨_, found, hheld, hasset, rfl⟩, hcarries⟩
      subst hasset
      rwa [hcarries.unique (carriesAmount_i128Val (hfits _ found hheld))]

theorem carriesAuction_auctionVal {auction : AuctionData} (h : auction.Fits) :
    CarriesAuction (auctionVal sorted auction) auction := by
  obtain ⟨hbid, hlot, hblock⟩ := h
  have hnd : ([(ScVal.symbol "bid", sideVal sorted auction.bid), (.symbol "block", .u32 (.ofNat auction.block)),
      (.symbol "lot", sideVal sorted auction.lot)].map Prod.fst).Nodup := by simp
  have hlast : ∀ {key value}, (key, value) ∈ [(ScVal.symbol "bid", sideVal sorted auction.bid),
      (.symbol "block", .u32 (.ofNat auction.block)), (.symbol "lot", sideVal sorted auction.lot)] →
      lastAt (ScMap.ofList (sorted [(ScVal.symbol "bid", sideVal sorted auction.bid),
        (.symbol "block", .u32 (.ofNat auction.block)), (.symbol "lot", sideVal sorted auction.lot)])).toList key =
        some value := by
    intro key value hin
    rw [ScMap.toList_ofList]
    exact (lastAt_sorted hsorted hnd).2 hin
  have hfits : auction.block < UInt32.size := by
    simp only [u32Max] at hblock
    simp only [UInt32.size]
    omega
  refine ⟨_, rfl, ?_, ⟨_, hlast (by simp), carriesSide_sideVal hsorted hbid⟩,
    ⟨_, hlast (by simp), carriesSide_sideVal hsorted hlot⟩, .ofNat auction.block, hlast (by simp), ?_⟩
  · intro entry hentry
    rw [ScMap.toList_ofList, (hsorted _).mem_iff] at hentry
    simp only [List.mem_cons, List.not_mem_nil, or_false] at hentry
    rcases hentry with rfl | rfl | rfl
    · exact ⟨_, rfl⟩
    · exact ⟨_, rfl⟩
    · exact ⟨_, rfl⟩
  · exact (UInt32.toNat_ofNat_of_lt' hfits).symm

theorem PoolEvent.carries (admin : Option ScVal) {event : PoolEvent} (h : event.Fits) :
    Carries (event.topics admin) (event.value sorted) event := by
  cases event with
  | supply _ _ amount tokens | withdraw _ _ amount tokens | supplyCollateral _ _ amount tokens
  | withdrawCollateral _ _ amount tokens | borrow _ _ amount tokens | repay _ _ amount tokens
  | flashLoan _ _ _ amount tokens | debtSetoff _ amount tokens =>
    exact ⟨rfl, _, _, rfl, carriesAmount_i128Val h.1, carriesAmount_i128Val h.2⟩
  | newAuction _ _ percent auction => exact ⟨rfl, _, rfl, carriesAuction_auctionVal hsorted h⟩
  | fillAuction _ _ filler fillPercent filled =>
    exact ⟨rfl, _, _, rfl, carriesAmount_i128Val h.1, carriesAuction_auctionVal hsorted h.2⟩
  | badDebt _ _ tokens | defaultedDebt _ tokens | collateralOrphaned _ _ tokens | orphanSettled _ tokens =>
    exact ⟨rfl, carriesAmount_i128Val h⟩
  | deleteAuction | setReserve => exact ⟨rfl, rfl⟩
  | setStatus status =>
    refine ⟨?_, rfl⟩
    cases admin with
    | none => exact .inl rfl
    | some second => exact .inr ⟨second, rfl⟩

/-- Decoding is exact over the whole format. -/
theorem decodePoolEvent_exact :
    (∀ (event : PoolEvent) (admin : Option ScVal), event.Fits →
      decodePoolEvent (event.topics admin) (event.value sorted) = .ok (some event)) ∧
    (∀ topics value event, decodePoolEvent topics value = .ok (some event) → Carries topics value event) ∧
    (∀ topics value, Modelled topics → (¬∃ event, Carries topics value event) →
      ∃ error, decodePoolEvent topics value = .error error) ∧
    ∀ topics value, decodePoolEvent topics value = .ok none ↔
      topics = [] ∨ (∃ first rest, topics = first :: rest ∧ ∀ name, first ≠ .symbol name) ∨
        ∃ name rest, topics = .symbol name :: rest ∧ name ∉ modelledNames := by
  refine ⟨?_, ?_, ?_, ?_⟩
  · intro event admin hfits
    exact decodePoolEvent_ok_iff.2 (PoolEvent.carries hsorted admin hfits)
  · intro topics value event h
    exact decodePoolEvent_ok_iff.1 h
  · intro topics value hmodelled hnone
    match h : decodePoolEvent topics value with
    | .error error => exact ⟨error, rfl⟩
    | .ok (some event) => exact absurd ⟨event, decodePoolEvent_ok_iff.1 h⟩ hnone
    | .ok none => exact absurd hmodelled (decodePoolEvent_none_iff.1 h)
  · intro topics value
    rw [decodePoolEvent_none_iff, Modelled]
    cases topics with
    | nil => simp
    | cons first rest => cases first <;> simp

end Encoder

/-- A partial fill that pays 1,234 and receives 5,678. -/
def partialFill : PoolEvent :=
  .fillAuction .userLiquidation "GUSER" "GFILLER" 50
    { bid := (∅ : BTreeMap String Int).insert "CUSDC" 1234, lot := (∅ : BTreeMap String Int).insert "CXLM" 5678
      block := 64271348 }

theorem sideFits_single {asset : String} {amount : Int} (h : FitsI128 amount) :
    SideFits ((∅ : BTreeMap String Int).insert asset amount) := by
  intro other found hfound
  rw [getElem?_insert] at hfound
  split at hfound
  · obtain rfl := Option.some.inj hfound
    exact h
  · simp at hfound

/-- Its fields are in order as they are written, and each side has one entry. -/
theorem decodes_partialFill :
    decodePoolEvent (partialFill.topics none) (partialFill.value fun entries => entries) = .ok (some partialFill) := by
  refine (decodePoolEvent_exact fun entries => List.Perm.refl entries).1 partialFill none ?_
  exact ⟨⟨by decide, by decide⟩, sideFits_single ⟨by decide, by decide⟩, sideFits_single ⟨by decide, by decide⟩, by decide⟩

end BlendLiquidator
