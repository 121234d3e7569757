/-
Walking a table page by page in the order of a key, each page starting after
the last key of the one before it.

A page misses no row that is after its cursor: it has the row, or the row is
after its last. On rows that keep their keys the pages are the keys in order,
each of them once.
-/
import Mathlib.Data.List.Sort

namespace Keyset

variable {α κ : Type} [LinearOrder κ] {key : α → κ} {rows : List α} {cursor : Option κ} {limit : Nat} {a last : α}

/-- After a cursor; at first every key is. -/
def IsAfter (cursor : Option κ) (k : κ) : Prop := ∀ c, cursor = some c → c < k

instance (cursor : Option κ) (k : κ) : Decidable (IsAfter cursor k) := match cursor with
  | none => .isTrue nofun
  | some c => decidable_of_iff (c < k) ⟨fun h _ hc => Option.some.inj hc ▸ h, fun h => h c rfl⟩

/-- The first `limit` rows after a cursor. -/
def page (key : α → κ) (rows : List α) (cursor : Option κ) (limit : Nat) : List α :=
  ((rows.filter fun a => IsAfter cursor (key a)).insertionSort fun a b => key a ≤ key b).take limit

theorem isAfter_none (k : κ) : IsAfter none k := nofun

/-- A page is empty only when nothing is left. -/
theorem page_eq_nil (h : page key rows cursor limit = []) (hlimit : 1 ≤ limit) (ha : a ∈ rows) :
    ¬IsAfter cursor (key a) := by
  intro hafter
  have hin : a ∈ (rows.filter fun a => IsAfter cursor (key a)).insertionSort fun a b => key a ≤ key b := by
    rw [List.mem_insertionSort, List.mem_filter, decide_eq_true_eq]
    exact ⟨ha, hafter⟩
  rcases List.take_eq_nil_iff.1 h with hzero | hnil
  · omega
  · rw [hnil] at hin
    cases hin

/-- A row after a page's cursor is on the page, or no earlier than its last. -/
theorem mem_page_or_le (hlast : (page key rows cursor limit).getLast? = some last) (ha : a ∈ rows)
    (hafter : IsAfter cursor (key a)) : a ∈ page key rows cursor limit ∨ key last ≤ key a := by
  have hin : a ∈ (rows.filter fun a => IsAfter cursor (key a)).insertionSort fun a b => key a ≤ key b := by
    rw [List.mem_insertionSort, List.mem_filter, decide_eq_true_eq]
    exact ⟨ha, hafter⟩
  rw [← List.take_append_drop limit (List.insertionSort _ _), List.mem_append] at hin
  rcases hin with hin | hin
  · exact .inl hin
  · right
    have hsorted : ((rows.filter fun a => IsAfter cursor (key a)).insertionSort fun a b => key a ≤ key b).Pairwise
        fun a b => key a ≤ key b :=
      haveI : Std.Total fun a b : α => key a ≤ key b := ⟨fun a b => le_total _ _⟩
      haveI : IsTrans α fun a b => key a ≤ key b := ⟨fun _ _ _ => le_trans⟩
      List.pairwise_insertionSort _ _
    rw [← List.take_append_drop limit (List.insertionSort _ _), List.pairwise_append] at hsorted
    exact hsorted.2.2 last (List.mem_of_getLast? hlast) a hin

/-- In a list in order, those a condition holds of come first, where it holds of
whatever comes before one it holds of. -/
theorem filter_take_of_pairwise {R : α → α → Prop} {p : α → Bool} (hdown : ∀ a b, R a b → p b → p a) :
    ∀ {rows : List α} {n : Nat}, rows.Pairwise R → (rows.take n).filter p = (rows.filter p).take n
  | [], _, _ => by simp
  | _ :: _, 0, _ => by simp
  | a :: rows, n + 1, h => by
    rw [List.pairwise_cons] at h
    by_cases ha : p a
    · rw [List.take_succ_cons, List.filter_cons_of_pos ha, List.filter_cons_of_pos ha, List.take_succ_cons,
        filter_take_of_pairwise hdown h.2]
    · have hnone : ∀ b ∈ a :: rows, ¬p b := by
        intro b hb
        rcases List.mem_cons.1 hb with rfl | hb
        · exact ha
        · exact fun hpb => ha (hdown a b (h.1 b hb) hpb)
      rw [List.filter_eq_nil_iff.2 hnone, List.filter_eq_nil_iff.2 fun b hb => hnone b (List.mem_of_mem_take hb)]
      rfl

/-! ## A whole walk -/

/-- The keys after a cursor, in order. -/
def keysAfter (key : α → κ) (rows : List α) (cursor : Option κ) : List κ :=
  ((rows.map key).insertionSort (· ≤ ·)).filter fun k => IsAfter cursor k

theorem mem_keysAfter {k : κ} : k ∈ keysAfter key rows cursor ↔ k ∈ rows.map key ∧ IsAfter cursor k := by
  rw [keysAfter, List.mem_filter, List.mem_insertionSort, decide_eq_true_eq]

theorem keysAfter_pairwise (hnodup : (rows.map key).Nodup) : (keysAfter key rows cursor).Pairwise (· < ·) := by
  have hsorted := List.pairwise_insertionSort (· ≤ ·) (rows.map key)
  have hne : ((rows.map key).insertionSort (· ≤ ·)).Nodup :=
    (List.perm_insertionSort (· ≤ ·) (rows.map key)).nodup_iff.2 hnodup
  refine List.Pairwise.filter _ ?_
  exact List.Pairwise.imp₂ (fun a b hle hne => lt_of_le_of_ne hle hne) hsorted hne

/-- A page is the first of them. -/
theorem map_page : (page key rows cursor limit).map key = (keysAfter key rows cursor).take limit := by
  unfold page keysAfter
  rw [List.map_take, List.map_insertionSort (fun a b => key a ≤ key b) (· ≤ ·) key _ fun _ _ _ _ => Iff.rfl]
  congr 1
  refine List.Perm.eq_of_pairwise' (r := (· ≤ ·)) (List.pairwise_insertionSort _ _)
    ((List.pairwise_insertionSort _ _).filter _) ?_
  have hfiltered : (rows.filter fun a => IsAfter cursor (key a)).map key =
      (rows.map key).filter fun k => IsAfter cursor k := by
    rw [List.filter_map]
    rfl
  rw [hfiltered]
  exact (List.perm_insertionSort _ _).trans ((List.perm_insertionSort _ _).filter _).symm

/-- The next page starts where this one ends. -/
theorem keysAfter_last {c : κ} (hnodup : (rows.map key).Nodup)
    (hlast : ((keysAfter key rows cursor).take limit).getLast? = some c) :
    keysAfter key rows (some c) = (keysAfter key rows cursor).drop limit := by
  have hc : c ∈ (keysAfter key rows cursor).take limit := List.mem_of_getLast? hlast
  have hafter : IsAfter cursor c := (mem_keysAfter.1 (List.mem_of_mem_take hc)).2
  -- What is after `c` was after the cursor already.
  have hsame : keysAfter key rows (some c) = (keysAfter key rows cursor).filter fun k => IsAfter (some c) k := by
    unfold keysAfter
    rw [List.filter_filter]
    refine List.filter_congr fun k _ => ?_
    have himp : IsAfter (some c) k → IsAfter cursor k := fun h d hd => (hafter d hd).trans (h c rfl)
    by_cases hk : IsAfter (some c) k
    · simp [hk, himp hk]
    · simp [hk]
  have hsorted : (keysAfter key rows cursor).Pairwise (· < ·) := keysAfter_pairwise hnodup
  rw [hsame]
  generalize keysAfter key rows cursor = keys at hlast hsorted
  rw [← List.take_append_drop limit keys, List.pairwise_append] at hsorted
  obtain ⟨htake, -, hlt⟩ := hsorted
  have hbefore : (keys.take limit).filter (fun k => IsAfter (some c) k) = [] := by
    rw [List.filter_eq_nil_iff]
    intro k hk
    rw [decide_eq_true_eq]
    intro hck
    obtain ⟨first, hfirst⟩ := List.getLast?_eq_some_iff.1 hlast
    rw [hfirst] at hk htake
    rw [List.pairwise_append] at htake
    rcases List.mem_append.1 hk with hk | hk
    · exact lt_asymm (hck c rfl) (htake.2.2 k hk c (List.mem_singleton.2 rfl))
    · rw [List.mem_singleton.1 hk] at hck
      exact lt_irrefl c (hck c rfl)
  have hrest : (keys.drop limit).filter (fun k => IsAfter (some c) k) = keys.drop limit := by
    rw [List.filter_eq_self]
    intro k hk
    rw [decide_eq_true_eq]
    intro d hd
    cases hd
    exact hlt c (List.mem_of_getLast? hlast) k hk
  calc keys.filter (fun k => IsAfter (some c) k)
      = (keys.take limit ++ keys.drop limit).filter (fun k => IsAfter (some c) k) := by rw [List.take_append_drop]
    _ = keys.drop limit := by rw [List.filter_append, hbefore, hrest, List.nil_append]

end Keyset
