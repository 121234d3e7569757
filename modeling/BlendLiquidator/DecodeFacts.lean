/-
What the decoders of ledger entries accept: the contract's own format, whatever
the order of its fields and whatever else stands among them, and nothing else.
-/
import BlendLiquidator.Decode
import BlendLiquidator.EventFormat

namespace BlendLiquidator

open Results TreeMaps

/-! ## Fields -/

/-- The fields of a contract struct by name: every one has a symbol for its name,
and of two of one name the later holds. -/
def FieldsOf (value : ScVal) (look : String → Option ScVal) : Prop :=
  ∃ entries, value = .map entries ∧ (∀ entry ∈ entries.toList, ∃ name, entry.1 = .symbol name) ∧
    ∀ name, look name = lastAt entries.toList (.symbol name)

section Fields

variable {look : String → Option ScVal} {name : String} {value : ScVal}

def HasU32 (look : String → Option ScVal) (name : String) (n : Nat) : Prop :=
  ∃ number : UInt32, look name = some (.u32 number) ∧ n = number.toNat

def HasU64 (look : String → Option ScVal) (name : String) (n : Nat) : Prop :=
  ∃ number : UInt64, look name = some (.u64 number) ∧ n = number.toNat

def HasAmount (look : String → Option ScVal) (name : String) (amount : Int) : Prop :=
  ∃ value, look name = some value ∧ CarriesAmount value amount

theorem structFields_fieldsOf {fields : BTreeMap String ScVal} :
    structFields value = .ok fields ↔ FieldsOf value fun name => fields[name]? := structFields_ok_iff

/-- Fields that are there are read. -/
theorem FieldsOf.read (h : FieldsOf value look) :
    ∃ fields, structFields value = .ok fields ∧ look = fun name => fields[name]? := by
  obtain ⟨entries, rfl, hkeys, hlook⟩ := h
  obtain ⟨fields, hread⟩ := structFields_of_keys hkeys
  obtain ⟨_, heq, -, hfields⟩ := structFields_ok_iff.1 hread
  obtain rfl := ScVal.map.inj heq
  exact ⟨fields, hread, funext fun name => (hlook name).trans (hfields name).symm⟩

/-- A decoder of a struct accepts what has its fields. -/
theorem structFields_bind_ok_iff {α : Type} {a : α} {decode : BTreeMap String ScVal → Except XdrError α}
    {Carries : (String → Option ScVal) → Prop}
    (h : ∀ fields : BTreeMap String ScVal, decode fields = .ok a ↔ Carries fun name => fields[name]?) :
    structFields value >>= decode = .ok a ↔ ∃ look, FieldsOf value look ∧ Carries look := by
  rw [bind_ok_iff]
  constructor
  · rintro ⟨fields, hfields, hdecoded⟩
    exact ⟨_, structFields_fieldsOf.1 hfields, (h fields).1 hdecoded⟩
  · rintro ⟨look, hlook, hcarries⟩
    obtain ⟨fields, hfields, rfl⟩ := hlook.read
    exact ⟨fields, hfields, (h fields).2 hcarries⟩

namespace Decode

variable {fields : BTreeMap String ScVal}

theorem u32Field_ok_iff {n : Nat} : u32Field fields name = .ok n ↔ HasU32 (fun name => fields[name]?) name n := by
  simp only [u32Field, HasU32, bind_ok_iff, pure_ok_iff, field_ok_iff, asU32_ok_iff]
  simp [eq_comm]

theorem asU64_ok_iff {number : UInt64} : asU64 value = .ok number ↔ value = .u64 number := by
  cases value <;> simp [asU64]

theorem asBool_ok_iff {answer : Bool} : asBool value = .ok answer ↔ value = .bool answer := by
  cases value <;> simp [asBool]

theorem u64Field_ok_iff {n : Nat} : u64Field fields name = .ok n ↔ HasU64 (fun name => fields[name]?) name n := by
  simp only [u64Field, HasU64, bind_ok_iff, pure_ok_iff, field_ok_iff, asU64_ok_iff]
  simp [eq_comm]

theorem i128Field_ok_iff {amount : Int} :
    i128Field fields name = .ok amount ↔ HasAmount (fun name => fields[name]?) name amount := by
  simp [i128Field, HasAmount, bind_ok_iff, field_ok_iff, asAmount_ok_iff]

theorem boolField_ok_iff {answer : Bool} : boolField fields name = .ok answer ↔ fields[name]? = some (.bool answer) := by
  simp [boolField, bind_ok_iff, field_ok_iff, asBool_ok_iff]

theorem addressField_ok_iff {strkey : String} :
    addressField fields name = .ok strkey ↔ fields[name]? = some (.address strkey) := by
  simp [addressField, bind_ok_iff, field_ok_iff, asAddress_ok_iff]

end Decode

end Fields

/-! ## Reserves -/

def CarriesReserveConfig (value : ScVal) (config : ReserveConfig) : Prop :=
  ∃ look, FieldsOf value look ∧ HasU32 look "index" config.index ∧ HasU32 look "decimals" config.decimals ∧
    HasU32 look "c_factor" config.cFactor ∧ HasU32 look "l_factor" config.lFactor ∧ HasU32 look "util" config.util ∧
    HasU32 look "max_util" config.maxUtil ∧ HasU32 look "r_base" config.rBase ∧ HasU32 look "r_one" config.rOne ∧
    HasU32 look "r_two" config.rTwo ∧ HasU32 look "r_three" config.rThree ∧ HasU32 look "reactivity" config.reactivity ∧
    HasAmount look "supply_cap" config.supplyCap ∧ look "enabled" = some (.bool config.enabled)

def CarriesReserveData (value : ScVal) (data : ReserveData) : Prop :=
  ∃ look, FieldsOf value look ∧ HasAmount look "d_rate" data.dRate ∧ HasAmount look "b_rate" data.bRate ∧
    HasAmount look "ir_mod" data.irMod ∧ HasAmount look "b_supply" data.bSupply ∧
    HasAmount look "d_supply" data.dSupply ∧ HasAmount look "backstop_credit" data.backstopCredit ∧
    HasU64 look "last_time" data.lastTime

namespace Decode

variable {value : ScVal}

theorem reserveConfigValue_ok_iff {config : ReserveConfig} :
    reserveConfigValue value = .ok config ↔ CarriesReserveConfig value config := by
  unfold reserveConfigValue CarriesReserveConfig
  refine structFields_bind_ok_iff fun fields => ?_
  obtain ⟨index, decimals, cFactor, lFactor, util, maxUtil, rBase, rOne, rTwo, rThree, reactivity, supplyCap,
    enabled⟩ := config
  simp only [bind_ok_iff, pure_ok_iff, u32Field_ok_iff, i128Field_ok_iff, boolField_ok_iff, ReserveConfig.mk.injEq]
  simp

theorem reserveDataValue_ok_iff {data : ReserveData} :
    reserveDataValue value = .ok data ↔ CarriesReserveData value data := by
  unfold reserveDataValue CarriesReserveData
  refine structFields_bind_ok_iff fun fields => ?_
  obtain ⟨dRate, bRate, irMod, bSupply, dSupply, backstopCredit, lastTime⟩ := data
  simp only [bind_ok_iff, pure_ok_iff, u64Field_ok_iff, i128Field_ok_iff, ReserveData.mk.injEq]
  simp

end Decode

/-! ## Positions -/

/-- Every entry is an amount under a reserve index; of two under one index the
later holds, and nothing is held under another. -/
def CarriesIndexed (value : ScVal) (side : BTreeMap Nat Int) : Prop :=
  ∃ entries, value = .map entries ∧
    (∀ entry ∈ entries.toList, ∃ index amount, entry.1 = .u32 index ∧ CarriesAmount entry.2 amount) ∧
    ∀ n amount, side[n]? = some amount ↔ ∃ index : UInt32, index.toNat = n ∧
      ∃ held, lastAt entries.toList (.u32 index) = some held ∧ CarriesAmount held amount

def CarriesPositions (value : ScVal) (positions : Positions) : Prop :=
  ∃ look, FieldsOf value look ∧
    (∃ held, look "collateral" = some held ∧ CarriesIndexed held positions.collateral) ∧
    (∃ held, look "liabilities" = some held ∧ CarriesIndexed held positions.liabilities) ∧
    ∃ held, look "supply" = some held ∧ CarriesIndexed held positions.supply

namespace Decode

variable {value : ScVal}

theorem indexMap_ok_iff {side : BTreeMap Nat Int} : indexMap value = .ok side ↔ CarriesIndexed value side := by
  cases value with
  | map entries =>
    have hkey : Function.Injective ScVal.u32 := fun a b h => by injection h
    have hnamed : Function.Injective UInt32.toNat := fun a b h => UInt32.toNat_inj.1 h
    rw [indexMap, foldlM_insert_named_ok_iff hkey hnamed readAmount]
    · simp only [CarriesIndexed, ScVal.map.injEq, exists_eq_left', readAmount_eq_some_iff]
      refine and_congr (by simp) ?_
      constructor
      · intro h n amount
        obtain ⟨hlook, hother⟩ := h
        by_cases hn : ∃ index : UInt32, index.toNat = n
        · obtain ⟨index, rfl⟩ := hn
          rw [hlook index]
          simp [Option.bind_eq_some_iff, readAmount_eq_some_iff, UInt32.toNat_inj]
        · rw [hother n fun index hindex => hn ⟨index, hindex⟩]
          simpa using fun index hindex => absurd ⟨index, hindex⟩ hn
      · intro hside
        refine ⟨fun index => ?_, fun n hn => ?_⟩
        · ext amount
          rw [hside]
          simp [Option.bind_eq_some_iff, readAmount_eq_some_iff, UInt32.toNat_inj]
        · rw [Std.ExtTreeMap.getElem?_empty, Option.eq_none_iff_forall_ne_some]
          intro amount hamount
          obtain ⟨index, hindex, -⟩ := (hside n amount).1 hamount
          exact hn index hindex
    · rintro side ⟨key, val⟩ side'
      cases key <;> cases val <;> simp [readAmount, eq_comm]
  | _ => simp [indexMap, CarriesIndexed]

theorem positionsValue_ok_iff {positions : Positions} :
    positionsValue value = .ok positions ↔ CarriesPositions value positions := by
  unfold positionsValue CarriesPositions
  refine structFields_bind_ok_iff fun fields => ?_
  obtain ⟨collateral, liabilities, supply⟩ := positions
  simp only [bind_ok_iff, pure_ok_iff, field_ok_iff, indexMap_ok_iff, Positions.mk.injEq]
  constructor
  · rintro ⟨held, hheld, _, hcollateral, held', hheld', _, hliabilities, held'', hheld'', _, hsupply, rfl, rfl, rfl⟩
    exact ⟨⟨held, hheld, hcollateral⟩, ⟨held', hheld', hliabilities⟩, held'', hheld'', hsupply⟩
  · rintro ⟨⟨held, hheld, hcollateral⟩, ⟨held', hheld', hliabilities⟩, held'', hheld'', hsupply⟩
    exact ⟨held, hheld, _, hcollateral, held', hheld', _, hliabilities, held'', hheld'', _, hsupply, rfl, rfl, rfl⟩

end Decode

/-! ## The list and the instance -/

/-- The assets in the order of their reserves' indices. -/
def CarriesReserveList (value : ScVal) (assets : List String) : Prop := value = .vec (.ofList (assets.map .address))

/-- The fields of instance storage by their symbol names; other keys are not
read. -/
def StorageOf (storage : List (ScVal × StorageVal)) (name : String) : Option StorageVal := lastAt storage (.symbol name)

/-- A pool's instance that holds these fields. -/
def CarriesInstance (entry : StoredEntry) (poolInstance : PoolInstance) : Prop :=
  ∃ storage xdr debug, entry = .contractData (.contractInstance storage xdr) debug ∧
    (∃ xdr, StorageOf storage "Name" = some (.string poolInstance.name xdr)) ∧
    StorageOf storage "Admin" = some (.val (.address poolInstance.admin)) ∧
    StorageOf storage "Backstop" = some (.val (.address poolInstance.backstop)) ∧
    StorageOf storage "BLNDTkn" = some (.val (.address poolInstance.blndToken)) ∧
    ∃ config look, StorageOf storage "Config" = some (.val config) ∧ FieldsOf config look ∧
      look "oracle" = some (.address poolInstance.config.oracle) ∧ HasU32 look "bstop_rate" poolInstance.config.bstopRate ∧
      look "status" = some (.u32 (.ofNat poolInstance.config.status.code)) ∧
      HasU32 look "max_positions" poolInstance.config.maxPositions ∧
      HasAmount look "min_collateral" poolInstance.config.minCollateral

/-- An entry of contract data that holds the value. -/
def Stores (entry : StoredEntry) (value : ScVal) : Prop :=
  ∃ val debug, entry = .contractData val debug ∧ val.scVal = value

namespace Decode

variable {value : ScVal} {entry : StoredEntry}

theorem mapM_asAddress_ok_iff {items : List ScVal} {assets : List String} :
    items.mapM asAddress = .ok assets ↔ items = assets.map .address := by
  induction items generalizing assets with
  | nil => rw [List.mapM_nil, pure_ok_iff, eq_comm, eq_comm (a := []), List.map_eq_nil_iff]
  | cons item items ih =>
    simp only [List.mapM_cons, bind_ok_iff, pure_ok_iff, asAddress_ok_iff, ih]
    constructor
    · rintro ⟨strkey, rfl, rest, rfl, rfl⟩
      rfl
    · intro h
      obtain ⟨strkey, rest, rfl, rfl, rfl⟩ := List.map_eq_cons_iff.1 h.symm
      exact ⟨strkey, rfl, rest, rfl, rfl⟩

theorem reserveListValue_ok_iff {assets : List String} :
    reserveListValue value = .ok assets ↔ CarriesReserveList value assets := by
  cases value with
  | vec items =>
    rw [reserveListValue, mapM_asAddress_ok_iff, CarriesReserveList, ScVal.vec.injEq]
    constructor
    · intro h
      rw [← h, ScVec.ofList_toList]
    · intro h
      rw [h, ScVec.toList_ofList]
  | _ => simp [reserveListValue, CarriesReserveList]

theorem entryValue_ok_iff {α : Type} {decode : ScVal → Except XdrError α} {a : α} :
    entryValue decode entry = .ok a ↔ ∃ value, Stores entry value ∧ decode value = .ok a := by
  unfold entryValue
  rw [bind_ok_iff]
  cases entry with
  | contractData val debug => simp [contractValue, Stores]
  | other debug => simp [contractValue, Stores]

theorem symbolStorage_getElem? {storage : List (ScVal × StorageVal)} {name : String} :
    (symbolStorage storage)[name]? = StorageOf storage name := by
  have hfold : ∀ {storage : List (ScVal × StorageVal)} {map : BTreeMap String StorageVal},
      (storage.foldl keepSymbol map)[name]? = (lastAt storage (.symbol name)).or map[name]? := by
    intro storage
    induction storage with
    | nil => simp [lastAt]
    | cons entry storage ih =>
      obtain ⟨key, val⟩ := entry
      intro map
      rw [List.foldl_cons, ih, lastAt]
      cases key with
      | symbol other =>
        rw [keepSymbol, getElem?_insert]
        by_cases hsame : other = name
        · simp [hsame]
        · simp [hsame]
      | _ => simp [keepSymbol]
  rw [symbolStorage, hfold, StorageOf]
  simp

theorem storageField_ok_iff {storage : BTreeMap String StorageVal} {name : String} {found : StorageVal} :
    storageField storage name = .ok found ↔ storage[name]? = some found := by
  unfold storageField
  cases storage[name]? <;> simp

theorem asText_ok_iff {found : StorageVal} {text : String} : asText found = .ok text ↔ ∃ xdr, found = .string text xdr := by
  cases found <;> simp [asText]

theorem storageAddress_ok_iff {storage : BTreeMap String StorageVal} {name strkey : String} :
    storageAddress storage name = .ok strkey ↔ storage[name]? = some (.val (.address strkey)) := by
  simp only [storageAddress, bind_ok_iff, storageField_ok_iff, asAddress_ok_iff]
  constructor
  · rintro ⟨found, hfound, hval⟩
    rw [hfound]
    cases found with
    | val value => rw [← hval]; rfl
    | string text xdr => cases hval
  · intro h
    exact ⟨_, h, rfl⟩

theorem statusField_ok_iff {fields : BTreeMap String ScVal} {name : String} {status : PoolStatus} :
    statusField fields name = .ok status ↔ fields[name]? = some (.u32 (.ofNat status.code)) := by
  simp only [statusField, bind_ok_iff, field_ok_iff, asU32_ok_iff, PoolStatus.tryFrom_ok_iff]
  simp

theorem instanceStorage_ok_iff {map : BTreeMap String StorageVal} :
    instanceStorage entry = .ok map ↔
      ∃ storage xdr debug, entry = .contractData (.contractInstance storage xdr) debug ∧ symbolStorage storage = map := by
  cases entry with
  | contractData val debug => cases val <;> simp [instanceStorage]
  | other debug => simp [instanceStorage]

theorem poolInstance_ok_iff {found : PoolInstance} : poolInstance entry = .ok found ↔ CarriesInstance entry found := by
  obtain ⟨admin, backstop, blndToken, name, oracle, bstopRate, status, maxPositions, minCollateral⟩ := found
  simp only [poolInstance, bind_ok_iff, instanceStorage_ok_iff, storageField_ok_iff, asText_ok_iff, storageAddress_ok_iff,
    addressField_ok_iff, u32Field_ok_iff, statusField_ok_iff, i128Field_ok_iff, pure_ok_iff, PoolInstance.mk.injEq,
    InstanceConfig.mk.injEq]
  constructor
  · rintro ⟨_, ⟨storage, xdr, debug, rfl, rfl⟩, config, hconfig, fields, hfields, _, hname, _, ⟨textXdr, rfl⟩,
      _, hadmin, _, hbackstop, _, htoken, _, horacle, _, hbstop, _, hstatus, _, hmax, _, hmin, rfl, rfl, rfl, rfl, rfl, rfl,
      rfl, rfl, rfl⟩
    rw [symbolStorage_getElem?] at hconfig hname hadmin hbackstop htoken
    cases config with
    | string _ _ => cases hfields
    | val config =>
      exact ⟨storage, xdr, debug, rfl, ⟨textXdr, hname⟩, hadmin, hbackstop, htoken, config, _, hconfig,
        structFields_fieldsOf.1 hfields, horacle, hbstop, hstatus, hmax, hmin⟩
  · rintro ⟨storage, xdr, debug, rfl, ⟨textXdr, hname⟩, hadmin, hbackstop, htoken, config, look, hconfig, hlook, horacle,
      hbstop, hstatus, hmax, hmin⟩
    obtain ⟨fields, hfields, rfl⟩ := hlook.read
    rw [← symbolStorage_getElem?] at hconfig hname hadmin hbackstop htoken
    exact ⟨_, ⟨storage, xdr, debug, rfl, rfl⟩, _, hconfig, fields, hfields, _, hname, _, ⟨textXdr, rfl⟩, _, hadmin, _,
      hbackstop, _, htoken, _, horacle, _, hbstop, _, hstatus, _, hmax, _, hmin, rfl, rfl, rfl, rfl, rfl, rfl, rfl, rfl, rfl⟩

end Decode

/-! ## Returned values -/

/-- A price as the oracle returns it, or none. -/
def CarriesPrice (value : ScVal) : Option PriceData → Prop
  | none => value = .void
  | some price => ∃ look, FieldsOf value look ∧ HasAmount look "price" price.price ∧ HasU64 look "timestamp" price.timestamp

namespace Decode

variable {value : ScVal}

theorem decimals_ok_iff {n : Nat} : decimals value = .ok n ↔ ∃ number : UInt32, value = .u32 number ∧ n = number.toNat := by
  simp only [decimals, bind_ok_iff, pure_ok_iff, asU32_ok_iff]
  simp [eq_comm]

theorem published_ok_iff {price : PriceData} : published value = .ok price ↔ CarriesPrice value (some price) := by
  refine structFields_bind_ok_iff fun fields => ?_
  obtain ⟨price, timestamp⟩ := price
  simp only [bind_ok_iff, pure_ok_iff, i128Field_ok_iff, u64Field_ok_iff, PriceData.mk.injEq]
  simp

theorem priceData_ok_iff {price : Option PriceData} : priceData value = .ok price ↔ CarriesPrice value price := by
  unfold priceData
  by_cases hvoid : value = .void
  · rw [if_pos hvoid, hvoid]
    cases price with
    | none => simp [CarriesPrice]
    | some price => simp [← published_ok_iff, published, structFields, bind, Except.bind]
  · rw [if_neg hvoid, bind_ok_iff]
    cases price with
    | none => simp [CarriesPrice, hvoid, pure_ok_iff]
    | some price => simp [published_ok_iff, pure_ok_iff]

end Decode

end BlendLiquidator
