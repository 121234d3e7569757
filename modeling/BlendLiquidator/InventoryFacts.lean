/-
The inventory's ledger along every run of its operations: what it holds
reserved is what the open tokens claim, so no settlement saturates, and a
reservation is granted only within the balance.
-/
import BlendLiquidator.Inventory
import BlendLiquidator.Results
import BlendLiquidator.TreeMaps
import Mathlib.Data.List.Perm.Basic

namespace BlendLiquidator

namespace Inventory

theorem saturate_of_fits {x : Int} (hmin : i128Min ≤ x) (hmax : x ≤ i128Max) : saturate x = x := by
  simp only [saturate]
  omega

theorem saturate_le (x : Int) : saturate x ≤ i128Max := by
  simp only [saturate, i128Min, i128Max]
  omega

/-- The subtraction only saturates upwards when something non-negative is
taken off an `i128`. -/
theorem lt_of_lt_saturate_sub {x y n : Int} (hx : x ≤ i128Max) (hy : 0 ≤ y) (hn : 0 < n)
    (h : n ≤ saturate (x - y)) : n ≤ x - y := by
  simp only [saturate, i128Min, i128Max] at h hx
  omega

/-- What the open tokens claim of `asset`. -/
def claimed (tokens : List Reservation) (asset : String) : Int :=
  (tokens.map fun token => token.amounts.getD asset 0).sum

@[simp] theorem claimed_nil {asset : String} : claimed [] asset = 0 := rfl

@[simp] theorem claimed_concat {tokens : List Reservation} {token : Reservation} {asset : String} :
    claimed (tokens ++ [token]) asset = claimed tokens asset + token.amounts.getD asset 0 := by
  simp [claimed]

theorem claimed_eraseIdx {tokens : List Reservation} {i : Nat} {token : Reservation}
    (h : tokens[i]? = some token) (asset : String) :
    claimed tokens asset = token.amounts.getD asset 0 + claimed (tokens.eraseIdx i) asset := by
  obtain ⟨hi, htoken⟩ := List.getElem?_eq_some_iff.1 h
  have hperm := List.getElem_cons_eraseIdx_perm hi
  rw [htoken] at hperm
  have hsum := (hperm.map fun token => token.amounts.getD asset 0).sum_eq
  simpa [claimed] using hsum.symm

/-- A token as `reserve` issues it. -/
structure Issued (token : Reservation) : Prop where
  unsettled : token.settled = false
  positive : ∀ (asset : String) amount, token.amounts[asset]? = some amount → 0 < amount

theorem Issued.nonneg {token : Reservation} (h : Issued token) (asset : String) :
    0 ≤ token.amounts.getD asset 0 := by
  rw [Std.ExtTreeMap.getD_eq_getD_getElem?]
  cases hget : token.amounts[asset]? with
  | none => exact le_refl 0
  | some amount => exact le_of_lt (h.positive asset amount hget)

theorem claimed_nonneg {tokens : List Reservation} (h : ∀ token ∈ tokens, Issued token) (asset : String) :
    0 ≤ claimed tokens asset := by
  refine List.sum_nonneg fun x hx => ?_
  obtain ⟨token, htoken, rfl⟩ := List.mem_map.1 hx
  exact (h token htoken).nonneg asset

/-! ## What one operation leaves -/

theorem subtract_getElem? (map : BTreeMap String Int) (asset : String) (amount : Int) (a : String) :
    (subtract map asset amount)[a]? =
      if asset = a then map[a]?.map fun value => max (saturate (value - amount)) 0 else map[a]? := by
  unfold subtract
  split
  · next value h =>
    rw [TreeMaps.getElem?_insert]
    split
    · next ha => rw [← ha, h]; rfl
    · rfl
  · next h =>
    split
    · next ha => rw [← ha, h]; rfl
    · rfl

theorem hold_getElem? (reserved : BTreeMap String Int) (asset : String) (amount : Int) (a : String) :
    (hold reserved asset amount)[a]? =
      if asset = a then some (saturate (reserved[a]?.getD 0 + amount)) else reserved[a]? := by
  unfold hold
  rw [TreeMaps.getElem?_insert, Std.ExtTreeMap.getD_eq_getD_getElem?]
  split
  · next h => rw [h]
  · rfl

/-- Every amount of a map taken off another. -/
theorem getElem?_foldl_subtract {map amounts : BTreeMap String Int} (asset : String) :
    (amounts.toList.foldl (fun map entry => subtract map entry.1 entry.2) map)[asset]? =
      amounts[asset]?.elim map[asset]? fun amount =>
        map[asset]?.map fun value => max (saturate (value - amount)) 0 :=
  TreeMaps.getElem?_foldl_toList
    (g := fun held amount => held.map fun value => max (saturate (value - amount)) 0) subtract_getElem?
    amounts map asset

/-- Taking off amounts that are held leaves the difference. -/
theorem getD_foldl_subtract_of_le {map amounts : BTreeMap String Int} {asset : String}
    (hpos : ∀ amount, amounts[asset]? = some amount → 0 < amount)
    (hle : amounts.getD asset 0 ≤ map.getD asset 0) (hmax : map.getD asset 0 ≤ i128Max) :
    (amounts.toList.foldl (fun map entry => subtract map entry.1 entry.2) map).getD asset 0 =
      map.getD asset 0 - amounts.getD asset 0 := by
  simp only [Std.ExtTreeMap.getD_eq_getD_getElem?] at hle hmax ⊢
  rw [getElem?_foldl_subtract]
  cases hamount : amounts[asset]? with
  | none => simp
  | some amount =>
    have hp := hpos amount hamount
    cases hvalue : map[asset]? with
    | none =>
      rw [hamount, hvalue] at hle
      simp only [Option.getD_some, Option.getD_none] at hle
      omega
    | some value =>
      rw [hamount, hvalue] at hle
      rw [hvalue] at hmax
      simp only [Option.getD_some, Option.map_some, Option.elim_some] at hle hmax ⊢
      rw [saturate_of_fits (by simp only [i128Min]; omega) (by omega)]
      omega

/-- A balance debited stays an `i128`. -/
theorem getD_foldl_subtract_le {map amounts : BTreeMap String Int} {asset : String}
    (hmax : map.getD asset 0 ≤ i128Max) :
    (amounts.toList.foldl (fun map entry => subtract map entry.1 entry.2) map).getD asset 0 ≤ i128Max := by
  simp only [Std.ExtTreeMap.getD_eq_getD_getElem?] at hmax ⊢
  rw [getElem?_foldl_subtract]
  cases amounts[asset]? with
  | none => exact hmax
  | some amount =>
    cases map[asset]? with
    | none => simp [i128Max]
    | some value => exact max_le (saturate_le (value - amount)) (by simp [i128Max])

/-- `consume`'s loop over both maps, one map at a time. -/
theorem consume_eq (token : Reservation) (ledger : Ledger) : token.consume ledger =
    { ledger with
      reserved := token.amounts.toList.foldl (fun map entry => subtract map entry.1 entry.2) ledger.reserved
      balances := token.amounts.toList.foldl (fun map entry => subtract map entry.1 entry.2) ledger.balances } := by
  simp only [Reservation.consume, Reservation.drop, ↓reduceIte]
  generalize token.amounts.toList = l
  induction l generalizing ledger with
  | nil => rfl
  | cons entry l ih => rw [List.foldl_cons, ih]; rfl

theorem drop_eq {token : Reservation} (h : token.settled = false) (ledger : Ledger) :
    token.drop ledger = token.unhold ledger := by
  simp [Reservation.drop, h]

/-- What `reserve` answers: a refusal and the ledger as it was, or the token
asked for, every amount positive and available, and each held. -/
theorem reserve_cases {ledger ledger' : Ledger} {amounts : BTreeMap String Int}
    {answer : Except InventoryError Reservation} (h : reserve ledger amounts = (answer, ledger')) :
    (∃ e, answer = .error e ∧ ledger' = ledger) ∨
    (answer = .ok { amounts, settled := false } ∧
      (∀ (asset : String) amount, amounts[asset]? = some amount → 0 < amount ∧ amount ≤ ledger.available asset) ∧
      ledger' = { ledger with reserved := amounts.toList.foldl (fun m e => hold m e.1 e.2) ledger.reserved }) := by
  simp only [reserve] at h
  split at h
  · next e _ =>
    obtain ⟨rfl, rfl⟩ := Prod.mk.inj h
    exact .inl ⟨e, rfl, rfl⟩
  · next hok =>
    obtain ⟨rfl, rfl⟩ := Prod.mk.inj h
    refine .inr ⟨rfl, fun asset amount hget => ?_, rfl⟩
    have hmem := Std.ExtTreeMap.mem_toList_iff_getElem?_eq_some.2 hget
    have hcheck := Results.forM_ok hok _ hmem
    simp only [claimable] at hcheck
    split at hcheck
    · cases hcheck
    · next hpos =>
      split at hcheck
      · cases hcheck
      · next hle => exact ⟨not_le.1 hpos, not_lt.1 hle⟩

/-- Amounts held go on top of what was, where nothing saturates. -/
theorem getD_foldl_hold {reserved amounts : BTreeMap String Int} {asset : String}
    (hnonneg : 0 ≤ reserved.getD asset 0 + amounts.getD asset 0)
    (hmax : reserved.getD asset 0 + amounts.getD asset 0 ≤ i128Max) :
    (amounts.toList.foldl (fun m e => hold m e.1 e.2) reserved).getD asset 0 =
      reserved.getD asset 0 + amounts.getD asset 0 := by
  simp only [Std.ExtTreeMap.getD_eq_getD_getElem?] at hnonneg hmax ⊢
  rw [TreeMaps.getElem?_foldl_toList (g := fun held amount => some (saturate (held.getD 0 + amount)))
    hold_getElem? amounts reserved asset]
  cases hamount : amounts[asset]? with
  | none => simp
  | some amount =>
    rw [hamount] at hnonneg hmax
    exact saturate_of_fits (le_trans (by simp [i128Min]) hnonneg) hmax

/-! ## What every operation keeps -/

/-- What holds of a wallet its callers have used in any way. -/
structure Kept (wallet : Wallet) : Prop where
  issued : ∀ token ∈ wallet.tokens, Issued token
  reserved : ∀ asset, wallet.ledger.reserved.getD asset 0 = claimed wallet.tokens asset
  reserved_le : ∀ asset, wallet.ledger.reserved.getD asset 0 ≤ i128Max
  balances_le : ∀ asset, wallet.ledger.balances.getD asset 0 ≤ i128Max
  feeReserve : 0 ≤ wallet.ledger.feeReserve

theorem Kept.withheld {wallet : Wallet} (h : Kept wallet) (asset : String) :
    0 ≤ wallet.ledger.withheld asset := by
  unfold Ledger.withheld
  split
  · exact h.feeReserve
  · exact le_refl 0

/-- A positive amount is available only within the balance, the open claims
and the fee reserve taken off it. -/
theorem Kept.within {wallet : Wallet} (h : Kept wallet) {asset : String} {amount : Int} (hpos : 0 < amount)
    (hle : amount ≤ wallet.ledger.available asset) :
    claimed wallet.tokens asset + amount + wallet.ledger.withheld asset ≤
      wallet.ledger.balances.getD asset 0 := by
  have hwithheld := h.withheld asset
  have hclaimed := claimed_nonneg h.issued asset
  have hbalance := h.balances_le asset
  simp only [Ledger.available, h.reserved asset] at hle
  have houter := lt_of_lt_saturate_sub (saturate_le _) hwithheld hpos
    ((le_max_iff.1 hle).resolve_right (not_le.2 hpos))
  have hinner := lt_of_lt_saturate_sub hbalance hclaimed (by omega : 0 < amount + wallet.ledger.withheld asset)
    (by omega)
  omega

/-- What an open token claims is held. -/
theorem Kept.held {wallet : Wallet} (h : Kept wallet) {token : Reservation} (hmem : token ∈ wallet.tokens)
    (asset : String) : token.amounts.getD asset 0 ≤ wallet.ledger.reserved.getD asset 0 := by
  obtain ⟨i, hi⟩ := List.mem_iff_getElem?.1 hmem
  have hrest : 0 ≤ claimed (wallet.tokens.eraseIdx i) asset :=
    claimed_nonneg (fun t ht => h.issued t (List.mem_of_mem_eraseIdx ht)) asset
  have hsplit := claimed_eraseIdx hi asset
  rw [h.reserved asset]
  omega

theorem Kept.new {feeAsset : String} {feeReserve : UInt64} :
    Kept { ledger := new feeAsset feeReserve, tokens := [] } where
  issued := by simp
  reserved asset := by simp [Inventory.new]
  reserved_le asset := by simp [Inventory.new, i128Max]
  balances_le asset := by simp [Inventory.new, i128Max]
  feeReserve := by simp [Inventory.new]

theorem Kept.recordBalances {wallet : Wallet} (h : Kept wallet) (balances : Balances) (instant : Nat) :
    Kept (wallet.step (.recordBalances balances instant)) :=
  { h with balances_le := fun asset => (balances.fits asset).2 }

theorem Kept.reserve {wallet : Wallet} (h : Kept wallet) (amounts : BTreeMap String Int) :
    Kept (wallet.step (.reserve amounts)) := by
  simp only [Wallet.step]
  generalize hr : Inventory.reserve wallet.ledger amounts = out
  obtain ⟨answer, ledger⟩ := out
  obtain ⟨e, rfl, rfl⟩ | ⟨rfl, hgranted, rfl⟩ := reserve_cases hr
  · exact h
  · have hissued : Issued { amounts, settled := false } :=
      ⟨rfl, fun asset amount hget => (hgranted asset amount hget).1⟩
    -- The balance is an `i128` and covers the claims, so holding them all is exact.
    have hsum : ∀ asset, wallet.ledger.reserved.getD asset 0 + amounts.getD asset 0 ≤ i128Max := by
      intro asset
      cases hget : amounts[asset]? with
      | none =>
        rw [Std.ExtTreeMap.getD_eq_getD_getElem? (t := amounts), hget]
        simpa using h.reserved_le asset
      | some amount =>
        obtain ⟨hpos, hle⟩ := hgranted asset amount hget
        have hwithin := h.within hpos hle
        have hwithheld := h.withheld asset
        have hbalance := h.balances_le asset
        rw [TreeMaps.getD_of_getElem? hget, h.reserved asset]
        omega
    have hexact : ∀ asset, (amounts.toList.foldl (fun m e => hold m e.1 e.2) wallet.ledger.reserved).getD
        asset 0 = wallet.ledger.reserved.getD asset 0 + amounts.getD asset 0 := fun asset =>
      getD_foldl_hold (add_nonneg (h.reserved asset ▸ claimed_nonneg h.issued asset) (hissued.nonneg asset))
        (hsum asset)
    refine { issued := fun token ht => ?_, reserved := fun asset => ?_, reserved_le := fun asset => ?_,
             balances_le := h.balances_le, feeReserve := h.feeReserve }
    · rcases List.mem_append.1 ht with ht | ht
      · exact h.issued token ht
      · rw [List.mem_singleton.1 ht]
        exact hissued
    · rw [claimed_concat, ← h.reserved asset]
      exact hexact asset
    · exact (hexact asset).le.trans (hsum asset)

/-- A settlement that takes the token's amounts off `reserved`, and leaves the
balances `i128`s, keeps the ledger, whichever route it is. -/
theorem Kept.settle {wallet : Wallet} (h : Kept wallet) (i : Nat) {route : Reservation → Ledger → Ledger}
    (hreserved : ∀ token, Issued token → (route token wallet.ledger).reserved =
      token.amounts.toList.foldl (fun map entry => subtract map entry.1 entry.2) wallet.ledger.reserved)
    (hbalances : ∀ token asset, (route token wallet.ledger).balances.getD asset 0 ≤ i128Max)
    (hfee : ∀ token, (route token wallet.ledger).feeReserve = wallet.ledger.feeReserve) :
    Kept (wallet.settle i route) := by
  unfold Wallet.settle
  split
  · next token htoken =>
    have hissued := h.issued token (List.mem_of_getElem? htoken)
    have hexact : ∀ asset, (route token wallet.ledger).reserved.getD asset 0 =
        wallet.ledger.reserved.getD asset 0 - token.amounts.getD asset 0 := fun asset => by
      rw [hreserved token hissued]
      exact getD_foldl_subtract_of_le (hissued.positive asset) (h.held (List.mem_of_getElem? htoken) asset)
        (h.reserved_le asset)
    refine { issued := fun t ht => h.issued t (List.mem_of_mem_eraseIdx ht), reserved := fun asset => ?_,
             reserved_le := fun asset => ?_, balances_le := hbalances token, feeReserve := ?_ }
    · have hsplit := claimed_eraseIdx htoken asset
      show (route token wallet.ledger).reserved.getD asset 0 = claimed (wallet.tokens.eraseIdx i) asset
      rw [hexact asset, h.reserved asset, hsplit]
      omega
    · have hle := h.reserved_le asset
      have hnonneg := hissued.nonneg asset
      show (route token wallet.ledger).reserved.getD asset 0 ≤ i128Max
      rw [hexact asset]
      omega
    · rw [hfee token]
      exact h.feeReserve
  · exact h

theorem Kept.step {wallet : Wallet} (h : Kept wallet) (op : Op) : Kept (wallet.step op) := by
  cases op with
  | recordBalances balances instant => exact h.recordBalances balances instant
  | reserve amounts => exact h.reserve amounts
  | consume i =>
    refine h.settle i (fun token _ => ?_) (fun token asset => ?_) fun token => ?_
    · rw [consume_eq]
    · rw [consume_eq]
      exact getD_foldl_subtract_le (h.balances_le asset)
    · rw [consume_eq]
  | release i => exact h.settle i (fun _ _ => rfl) (fun _ => h.balances_le) fun _ => rfl
  | drop i =>
    refine h.settle i (fun token hissued => ?_) (fun token asset => ?_) fun token => ?_
    · rw [drop_eq hissued.unsettled]
      rfl
    · unfold Reservation.drop
      split <;> exact h.balances_le asset
    · unfold Reservation.drop
      split <;> rfl

theorem Kept.run (feeAsset : String) (feeReserve : UInt64) (ops : List Op) :
    Kept (Wallet.run feeAsset feeReserve ops) := by
  unfold Wallet.run
  induction ops using List.reverseRecOn with
  | nil => exact Kept.new
  | append_singleton ops op ih =>
    rw [List.foldl_concat]
    exact ih.step op

/-! ## The ledger's promises -/

/-- What the inventory promises of a wallet. -/
structure Sound (wallet : Wallet) : Prop where
  /-- What is held is what the tokens still open claim. -/
  reserved_eq : ∀ asset, wallet.ledger.reserved.getD asset 0 = claimed wallet.tokens asset
  /-- Settling a token takes exactly its amounts off: no subtraction
  saturates. -/
  exact : ∀ token ∈ wallet.tokens, ∀ (asset : String) (amount : Int), token.amounts[asset]? = some amount →
    ∃ held, wallet.ledger.reserved[asset]? = some held ∧ 0 ≤ held - amount ∧
      saturate (held - amount) = held - amount
  available_nonneg : ∀ asset, 0 ≤ wallet.ledger.available asset
  /-- A refusal claims nothing. -/
  refused : ∀ amounts e ledger, reserve wallet.ledger amounts = (.error e, ledger) → ledger = wallet.ledger
  /-- Right after a grant, the open claims on each asset it names and the fee
  reserve are within the recorded balance. -/
  covered : ∀ amounts token ledger, reserve wallet.ledger amounts = (.ok token, ledger) → ∀ asset ∈ amounts,
    claimed (wallet.tokens ++ [token]) asset + ledger.withheld asset ≤ ledger.balances.getD asset 0

theorem Kept.sound {wallet : Wallet} (h : Kept wallet) : Sound wallet where
  reserved_eq := h.reserved
  exact token hmem asset amount hget := by
    have hpos := (h.issued token hmem).positive asset amount hget
    have hheld := h.held hmem asset
    have hmax := h.reserved_le asset
    rw [TreeMaps.getD_of_getElem? hget, Std.ExtTreeMap.getD_eq_getD_getElem?] at hheld
    rw [Std.ExtTreeMap.getD_eq_getD_getElem?] at hmax
    cases hreserved : wallet.ledger.reserved[asset]? with
    | none =>
      rw [hreserved, Option.getD_none] at hheld
      omega
    | some held =>
      rw [hreserved, Option.getD_some] at hheld hmax
      exact ⟨held, rfl, by omega, saturate_of_fits (by simp only [i128Min]; omega) (by omega)⟩
  available_nonneg asset := le_max_right _ _
  refused amounts e ledger hr := by
    obtain ⟨_, _, rfl⟩ | ⟨hne, _⟩ := reserve_cases hr
    · rfl
    · cases hne
  covered amounts token ledger hr asset hasset := by
    obtain ⟨e, hne, _⟩ | ⟨htoken, hgranted, rfl⟩ := reserve_cases hr
    · cases hne
    · cases htoken
      obtain ⟨amount, hget⟩ := Option.isSome_iff_exists.1 (Std.ExtTreeMap.mem_iff_isSome_getElem?.1 hasset)
      obtain ⟨hpos, hle⟩ := hgranted asset amount hget
      rw [claimed_concat, TreeMaps.getD_of_getElem? hget]
      exact h.within hpos hle

/-- Whatever the callers do, in whatever order, the ledger keeps its
promises. -/
theorem inventory_sound (feeAsset : String) (feeReserve : UInt64) (ops : List Op) :
    Sound (Wallet.run feeAsset feeReserve ops) :=
  (Kept.run feeAsset feeReserve ops).sound

end Inventory

end BlendLiquidator
