/-
Both planners debit a copy of the wallet and record what they spend. This is
what the copy and the record keep true together (`Spending`), and what it
says once the loop is over: no asset is spent beyond the wallet.
-/
import BlendLiquidator.Contract
import BlendLiquidator.Fill
import BlendLiquidator.FixedFacts

namespace BlendLiquidator

open Results

theorem addTo_ok {κ} [Ord κ] [Std.TransOrd κ] {map map' : BTreeMap κ Int} {key : κ} {amount : Int}
    (h : addTo map key amount = .ok map') :
    map' = if amount = 0 then map else map.insert key (map.getD key 0 + amount) := by
  simp only [addTo] at h
  split
  · next h0 => rw [if_pos h0] at h; exact (pure_ok_iff.1 h).symm
  · next h0 =>
    simp only [h0, ↓reduceIte, bind_ok_iff, pure_ok_iff] at h
    obtain ⟨entry, he, rfl⟩ := h
    rw [narrow_ok he]

/-- The entry `addTo` leaves: the amount goes to its own key alone. -/
theorem addTo_getD {map map' : BTreeMap String Int} {key : String} {amount : Int}
    (h : addTo map key amount = .ok map') (asset : String) :
    map'.getD asset 0 = map.getD asset 0 + if key = asset then amount else 0 := by
  rw [addTo_ok h]
  by_cases h0 : amount = 0
  · simp [h0]
  · rw [if_neg h0, TreeMaps.getD_insert]
    by_cases hk : key = asset
    · subst hk; simp
    · simp [hk]

theorem addTo_mem {map map' : BTreeMap String Int} {key asset : String} {amount : Int}
    (h : addTo map key amount = .ok map') (hm : asset ∈ map') : key = asset ∨ asset ∈ map := by
  rw [addTo_ok h] at hm
  split at hm
  · exact .inr hm
  · exact TreeMaps.mem_insert.1 hm

/-- The spend is what the requests spend, the copy is what is left of the
wallet they started from, and it is never negative for an asset spent. -/
structure Spending (start wallet spend : BTreeMap String Int) (requests : List Request) : Prop where
  spend_eq : ∀ asset, spend.getD asset 0 = spentOn asset requests
  balance : ∀ asset, wallet.getD asset 0 + spend.getD asset 0 = start.getD asset 0
  funded : ∀ asset, asset ∈ spend → 0 ≤ wallet.getD asset 0

theorem Spending.start (wallet : BTreeMap String Int) : Spending wallet wallet ∅ [] :=
  ⟨fun _ => by simp [spentOn], fun _ => by simp, fun _ hm => by simp at hm⟩

/-- A repay of no more than the copy holds, debited and recorded. -/
theorem Spending.repay {start wallet spend spend' : BTreeMap String Int} {requests : List Request}
    {asset : String} {amount rest : Int} (h : Spending start wallet spend requests)
    (hle : amount ≤ wallet.getD asset 0) (hrest : narrow (wallet.getD asset 0 - amount) = .ok rest)
    (hs : addTo spend asset amount = .ok spend') :
    Spending start (wallet.insert asset rest) spend' (requests ++ [.repay asset amount]) := by
  have hrest := narrow_ok hrest
  refine ⟨fun a => ?_, fun a => ?_, fun a ha => ?_⟩
  · rw [addTo_getD hs, spentOn_concat, h.spend_eq a]
    simp [spentOn]
  · have hb := h.balance a
    rw [addTo_getD hs, TreeMaps.getD_insert]
    by_cases hk : asset = a
    · subst hk; simp only [↓reduceIte]; omega
    · simp only [hk, ↓reduceIte]; omega
  · rw [TreeMaps.getD_insert]
    by_cases hk : asset = a
    · subst hk; simp only [↓reduceIte]; omega
    · simp only [hk, ↓reduceIte]
      exact h.funded a ((addTo_mem hs ha).resolve_left hk)

/-- A request that takes nothing from the wallet. -/
theorem Spending.free {start wallet spend : BTreeMap String Int} {requests : List Request}
    {request : Request} (h : Spending start wallet spend requests)
    (hfree : ∀ asset, spentOn asset [request] = 0) :
    Spending start wallet spend (requests ++ [request]) :=
  ⟨fun a => by rw [spentOn_concat, hfree a, h.spend_eq a]; omega, h.balance, h.funded⟩

theorem Spending.within {start wallet spend : BTreeMap String Int} {requests : List Request}
    (h : Spending start wallet spend requests) {asset : String} {amount : Int}
    (hs : spend[asset]? = some amount) : amount ≤ start.getD asset 0 := by
  have h1 := h.balance asset
  have h2 := h.funded asset (TreeMaps.mem_of_getElem? hs)
  rw [TreeMaps.getD_of_getElem? hs] at h1
  omega

end BlendLiquidator
