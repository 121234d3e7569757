/-
Soroban's values, as far as the decoders of `chain/xdr/` tell them apart.

Addresses are their strkeys and symbols their text. A variant no decoder
inspects is its base64 text. Equality is decidable, so the three types are
one mutual block rather than an inductive nested in `List`.
-/

namespace BlendLiquidator

mutual

/-- `ScVal`. `Vec` and `Map` hold an option in the XDR schema, so each is
two constructors here. -/
inductive ScVal
  | void
  | bool (value : Bool)
  | u32 (value : UInt32)
  | u64 (value : UInt64)
  | i128 (hi : Int64) (lo : UInt64)
  | symbol (name : String)
  | address (strkey : String)
  | vec (items : ScVec)
  | vecNone
  | map (entries : ScMap)
  | mapNone
  | other (xdr : String)
  deriving Repr, DecidableEq

inductive ScVec
  | nil
  | cons (item : ScVal) (items : ScVec)
  deriving Repr, DecidableEq

inductive ScMap
  | nil
  | cons (key val : ScVal) (entries : ScMap)
  deriving Repr, DecidableEq

end

def ScVec.toList : ScVec → List ScVal
  | .nil => []
  | .cons item items => item :: items.toList

def ScVec.ofList : List ScVal → ScVec
  | [] => .nil
  | item :: items => .cons item (ofList items)

def ScMap.toList : ScMap → List (ScVal × ScVal)
  | .nil => []
  | .cons key val entries => (key, val) :: entries.toList

def ScMap.ofList : List (ScVal × ScVal) → ScMap
  | [] => .nil
  | (key, val) :: entries => .cons key val (ofList entries)

@[simp] theorem ScVec.toList_ofList : ∀ items : List ScVal, (ScVec.ofList items).toList = items
  | [] => rfl
  | item :: items => by rw [ScVec.ofList, ScVec.toList, ScVec.toList_ofList items]

@[simp] theorem ScVec.ofList_toList : ∀ items : ScVec, ScVec.ofList items.toList = items
  | .nil => rfl
  | .cons item items => by rw [ScVec.toList, ScVec.ofList, ScVec.ofList_toList items]

@[simp] theorem ScMap.toList_ofList : ∀ entries : List (ScVal × ScVal), (ScMap.ofList entries).toList = entries
  | [] => rfl
  | (key, val) :: entries => by rw [ScMap.ofList, ScMap.toList, ScMap.toList_ofList entries]

/-- `(i128::from(hi) << 64) | i128::from(lo)`. -/
def asI128 (hi : Int64) (lo : UInt64) : Int :=
  ((hi.toBitVec.signExtend 128 <<< 64) ||| lo.toBitVec.zeroExtend 128).toInt

/-- What a shape error found: a text of the decoder's own, or a value or a map
entry in its debug rendering, which is kept as the thing rendered. -/
inductive Got
  | text (what : String)
  | value (found : ScVal)
  | entry (key val : ScVal)
  deriving Repr, DecidableEq

end BlendLiquidator
