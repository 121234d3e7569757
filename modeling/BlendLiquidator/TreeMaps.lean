/-
Lookups in an ordered map, over keys whose comparison decides equality: what
an insertion or an erasure answers at each key, sums over a map's entries
compared key by key, and what a fold of updates over a map's entries leaves
at each key, a fold that may fail included; pairs collected into a map, of
which the last under a key holds. Then the same for membership in an ordered
set, and in a map's sets.
-/
import Std.Data.ExtTreeMap
import Std.Data.ExtTreeSet
import Mathlib.Algebra.BigOperators.Group.List.Basic
import Mathlib.Algebra.Order.BigOperators.Group.Finset
import Mathlib.Algebra.Order.Group.Int
import Mathlib.Algebra.Ring.Int.Defs
import BlendLiquidator.Results

namespace TreeMaps

open Std

variable {κ ν : Type} [Ord κ] [TransOrd κ]

theorem getD_of_getElem? {m : ExtTreeMap κ ν compare} {k : κ} {v d : ν} (h : m[k]? = some v) :
    m.getD k d = v := by
  rw [ExtTreeMap.getD_eq_getD_getElem?, h]
  rfl

theorem mem_of_getElem? {m : ExtTreeMap κ ν compare} {k : κ} {v : ν} (h : m[k]? = some v) : k ∈ m := by
  rw [ExtTreeMap.mem_iff_isSome_getElem?, h]
  rfl

variable [LawfulEqOrd κ]

theorem mem_insert {m : ExtTreeMap κ ν compare} {k a : κ} {v : ν} :
    a ∈ m.insert k v ↔ k = a ∨ a ∈ m := by
  rw [ExtTreeMap.mem_insert]
  simp only [Std.compare_eq_iff_eq]

theorem nodup_keys (m : ExtTreeMap κ ν compare) : m.keys.Nodup := by
  have h := ExtTreeMap.distinct_keys (t := m)
  refine h.imp ?_
  intro a b hab
  simpa only [ne_eq, Std.compare_eq_iff_eq] using hab

variable [DecidableEq κ]

theorem getElem?_insert (m : ExtTreeMap κ ν compare) (k a : κ) (v : ν) :
    (m.insert k v)[a]? = if k = a then some v else m[a]? := by
  rw [ExtTreeMap.getElem?_insert]
  simp only [Std.compare_eq_iff_eq]

theorem getElem?_erase (m : ExtTreeMap κ ν compare) (k a : κ) :
    (m.erase k)[a]? = if k = a then none else m[a]? := by
  rw [ExtTreeMap.getElem?_erase]
  simp only [Std.compare_eq_iff_eq]

theorem getD_insert (m : ExtTreeMap κ ν compare) (k a : κ) (v d : ν) :
    (m.insert k v).getD a d = if k = a then v else m.getD a d := by
  rw [ExtTreeMap.getD_insert]
  simp only [Std.compare_eq_iff_eq]

theorem getD_erase (m : ExtTreeMap κ ν compare) (k a : κ) (d : ν) :
    (m.erase k).getD a d = if k = a then d else m.getD a d := by
  rw [ExtTreeMap.getD_erase]
  simp only [Std.compare_eq_iff_eq]

/-- A sum over a map's entries, as a sum over any set of keys that has them
all: a key the map lacks counts for nothing. -/
theorem sum_toList_eq (m : ExtTreeMap κ Int compare) {f : κ → Int → Int} (h0 : ∀ k, f k 0 = 0)
    {s : Finset κ} (hs : ∀ k ∈ m, k ∈ s) :
    (m.toList.map fun entry => f entry.1 entry.2).sum = ∑ k ∈ s, f k (m.getD k 0) := by
  have hval : m.toList.map (fun entry => f entry.1 entry.2) = m.keys.map fun k => f k (m.getD k 0) := by
    rw [← ExtTreeMap.map_fst_toList_eq_keys, List.map_map]
    refine List.map_congr_left fun entry he => ?_
    have h := ExtTreeMap.mem_toList_iff_getElem?_eq_some.1 (show (entry.1, entry.2) ∈ m.toList from he)
    simp only [Function.comp_apply, getD_of_getElem? h]
  rw [hval, ← List.sum_toFinset _ (nodup_keys m)]
  refine Finset.sum_subset ?_ ?_
  · intro k hk
    exact hs k (by simpa using hk)
  · intro k _ hk
    have hnot : k ∉ m := by simpa using hk
    rw [ExtTreeMap.getD_eq_fallback hnot, h0]

/-- Sums over two maps' entries compare when every key's does. -/
theorem sum_toList_le (m m' : ExtTreeMap κ Int compare) {f f' : κ → Int → Int} (h0 : ∀ k, f k 0 = 0)
    (h0' : ∀ k, f' k 0 = 0) (hle : ∀ k, f' k (m'.getD k 0) ≤ f k (m.getD k 0)) :
    (m'.toList.map fun entry => f' entry.1 entry.2).sum ≤
      (m.toList.map fun entry => f entry.1 entry.2).sum := by
  have hm : ∀ k ∈ m, k ∈ m.keys.toFinset ∪ m'.keys.toFinset := fun k hk => by simp [hk]
  have hm' : ∀ k ∈ m', k ∈ m.keys.toFinset ∪ m'.keys.toFinset := fun k hk => by simp [hk]
  rw [sum_toList_eq m h0 hm, sum_toList_eq m' h0' hm']
  exact Finset.sum_le_sum fun k _ => hle k

/-- Two maps that differ at one key have sums that differ by its terms. -/
theorem sum_toList_update (m m' : ExtTreeMap κ Int compare) {f : κ → Int → Int} (h0 : ∀ k, f k 0 = 0) {a : κ}
    (hother : ∀ k, a ≠ k → m'.getD k 0 = m.getD k 0) :
    (m'.toList.map fun entry => f entry.1 entry.2).sum + f a (m.getD a 0) =
      (m.toList.map fun entry => f entry.1 entry.2).sum + f a (m'.getD a 0) := by
  have hm : ∀ k ∈ m, k ∈ insert a (m.keys.toFinset ∪ m'.keys.toFinset) := fun k hk => by simp [hk]
  have hm' : ∀ k ∈ m', k ∈ insert a (m.keys.toFinset ∪ m'.keys.toFinset) := fun k hk => by simp [hk]
  have ha : a ∈ insert a (m.keys.toFinset ∪ m'.keys.toFinset) := Finset.mem_insert_self a _
  rw [sum_toList_eq m h0 hm, sum_toList_eq m' h0 hm', ← Finset.sum_erase_add _ _ ha,
    ← Finset.sum_erase_add _ (fun k => f k (m.getD k 0)) ha]
  have hrest : ∑ k ∈ (insert a (m.keys.toFinset ∪ m'.keys.toFinset)).erase a, f k (m'.getD k 0) =
      ∑ k ∈ (insert a (m.keys.toFinset ∪ m'.keys.toFinset)).erase a, f k (m.getD k 0) := by
    refine Finset.sum_congr rfl fun k hk => ?_
    rw [hother k (Finset.ne_of_mem_erase hk).symm]
  rw [hrest]
  omega

/-! ## Folds of updates -/

section Updates

variable {ν' : Type} {u : ExtTreeMap κ ν compare → κ → ν' → ExtTreeMap κ ν compare}
  {g : Option ν → ν' → Option ν}

omit [LawfulEqOrd κ] in
/-- Updates at other keys leave a key alone. -/
theorem getElem?_foldl_of_ne (hu : ∀ m k v a, (u m k v)[a]? = if k = a then g m[a]? v else m[a]?) {a : κ} :
    ∀ {l : List (κ × ν')} (m : ExtTreeMap κ ν compare), (∀ e ∈ l, e.1 ≠ a) →
      (l.foldl (fun m e => u m e.1 e.2) m)[a]? = m[a]?
  | [], _, _ => rfl
  | e :: l, m, h => by
    rw [List.foldl_cons, getElem?_foldl_of_ne hu _ fun e' he => h e' (List.mem_cons_of_mem _ he), hu,
      if_neg (h e List.mem_cons_self)]

omit [LawfulEqOrd κ] in
/-- Of updates at distinct keys, a key sees its own. -/
theorem getElem?_foldl_of_mem (hu : ∀ m k v a, (u m k v)[a]? = if k = a then g m[a]? v else m[a]?) {a : κ}
    {v : ν'} : ∀ {l : List (κ × ν')} (m : ExtTreeMap κ ν compare), (l.map Prod.fst).Nodup → (a, v) ∈ l →
      (l.foldl (fun m e => u m e.1 e.2) m)[a]? = g m[a]? v
  | [], _, _, h => by simp at h
  | e :: l, m, hnd, h => by
    obtain ⟨hnot, hnd⟩ := List.nodup_cons.1 hnd
    rw [List.foldl_cons]
    by_cases he : e.1 = a
    · have hne : ∀ e' ∈ l, e'.1 ≠ a := fun e' he' heq =>
        hnot (List.mem_map.2 ⟨e', he', heq.trans he.symm⟩)
      have hav : (a, v) = e := (List.mem_cons.1 h).resolve_right fun hl => hne _ hl rfl
      rw [getElem?_foldl_of_ne hu _ hne, hu, if_pos he, ← hav]
    · have hl : (a, v) ∈ l := (List.mem_cons.1 h).resolve_left fun heq => he (congrArg Prod.fst heq).symm
      rw [getElem?_foldl_of_mem hu _ hnd hl, hu, if_neg he]

/-- A fold of updates over a map's entries updates each key once, by the
entry the map has there. -/
theorem getElem?_foldl_toList (hu : ∀ m k v a, (u m k v)[a]? = if k = a then g m[a]? v else m[a]?)
    (entries : ExtTreeMap κ ν' compare) (m : ExtTreeMap κ ν compare) (a : κ) :
    (entries.toList.foldl (fun m e => u m e.1 e.2) m)[a]? =
      entries[a]?.elim m[a]? fun v => g m[a]? v := by
  have hnd : (entries.toList.map Prod.fst).Nodup := by
    rw [ExtTreeMap.map_fst_toList_eq_keys]
    exact nodup_keys entries
  cases h : entries[a]? with
  | some v => exact getElem?_foldl_of_mem hu m hnd (ExtTreeMap.mem_toList_iff_getElem?_eq_some.2 h)
  | none =>
    refine getElem?_foldl_of_ne hu m fun e he heq => ?_
    have hsome := ExtTreeMap.mem_toList_iff_getElem?_eq_some.1 (show (e.1, e.2) ∈ entries.toList from he)
    rw [heq, h] at hsome
    cases hsome

end Updates

section Fallible

variable {ε β γ : Type} {step : β → κ × ν → Except ε β} {look : β → κ → γ} {R : ν → γ → γ → Prop}

omit [Ord κ] [TransOrd κ] [LawfulEqOrd κ] in
/-- What a key sees of the steps at distinct keys, each of which touches its own
alone: its own, or none. -/
theorem foldlM_at (hstep : ∀ acc entry acc', step acc entry = .ok acc' →
      R entry.2 (look acc entry.1) (look acc' entry.1) ∧ ∀ a, entry.1 ≠ a → look acc' a = look acc a) {a : κ} :
    ∀ {l : List (κ × ν)} {start final : β}, (l.map Prod.fst).Nodup → l.foldlM step start = .ok final →
      (∀ v, (a, v) ∈ l → R v (look start a) (look final a)) ∧ ((∀ e ∈ l, e.1 ≠ a) → look final a = look start a)
  | [], start, final, _, h => by
    rw [List.foldlM_nil, Results.pure_ok_iff] at h
    subst h
    exact ⟨fun v hv => (nomatch hv), fun _ => rfl⟩
  | e :: l, start, final, hnd, h => by
    obtain ⟨hnot, hnd⟩ := List.nodup_cons.1 hnd
    rw [List.foldlM_cons, Results.bind_ok_iff] at h
    obtain ⟨next, hnext, hrest⟩ := h
    obtain ⟨hown, hother⟩ := hstep start e next hnext
    obtain ⟨hmem, habsent⟩ := foldlM_at hstep (a := a) hnd hrest
    by_cases he : e.1 = a
    · subst he
      have hne : ∀ e' ∈ l, e'.1 ≠ e.1 := fun e' he' heq => hnot (List.mem_map.2 ⟨e', he', heq⟩)
      refine ⟨fun v hv => ?_, fun hall => absurd rfl (hall e List.mem_cons_self)⟩
      rcases List.mem_cons.1 hv with hv | hv
      · rw [habsent hne]
        exact hv ▸ hown
      · exact absurd rfl (hne (e.1, v) hv)
    · rw [hother a he] at hmem habsent
      refine ⟨fun v hv => hmem v ?_, fun hall => habsent fun e' he' => hall e' (List.mem_cons_of_mem e he')⟩
      exact (List.mem_cons.1 hv).resolve_left fun heq => he (congrArg Prod.fst heq).symm

/-- A fold over a map's entries that succeeded took the entry of each key, and
left the keys the map lacks as they were. -/
theorem foldlM_toList_at (hstep : ∀ acc entry acc', step acc entry = .ok acc' →
      R entry.2 (look acc entry.1) (look acc' entry.1) ∧ ∀ a, entry.1 ≠ a → look acc' a = look acc a)
    {m : ExtTreeMap κ ν compare} {start final : β} (h : m.toList.foldlM step start = .ok final) (a : κ) :
    m[a]?.elim (look final a = look start a) fun v => R v (look start a) (look final a) := by
  have hnd : (m.toList.map Prod.fst).Nodup := by
    rw [ExtTreeMap.map_fst_toList_eq_keys]
    exact nodup_keys m
  obtain ⟨hmem, habsent⟩ := foldlM_at hstep (a := a) hnd h
  cases hm : m[a]? with
  | some v => exact hmem v (ExtTreeMap.mem_toList_iff_getElem?_eq_some.2 hm)
  | none =>
    refine habsent fun e he heq => ?_
    have hsome := ExtTreeMap.mem_toList_iff_getElem?_eq_some.1 (show (e.1, e.2) ∈ m.toList from he)
    rw [heq, hm] at hsome
    cases hsome

/-- The same of a fold that cannot fail. -/
theorem foldl_toList_at {step : β → κ × ν → β} (hstep : ∀ acc entry,
      R entry.2 (look acc entry.1) (look (step acc entry) entry.1) ∧ ∀ a, entry.1 ≠ a → look (step acc entry) a = look acc a)
    (m : ExtTreeMap κ ν compare) (start : β) (a : κ) :
    m[a]?.elim (look (m.toList.foldl step start) a = look start a) fun v =>
      R v (look start a) (look (m.toList.foldl step start) a) := by
  have hpure : m.toList.foldlM (fun acc e => (.ok (step acc e) : Except Empty β)) start = .ok (m.toList.foldl step start) :=
    List.foldlM_pure
  refine foldlM_toList_at (fun acc entry acc' h => ?_) hpure a
  obtain rfl := Except.ok.inj h
  exact hstep acc entry

end Fallible

/-- What stands at each key after inserts at distinct keys. -/
theorem getElem?_foldl_insert_eq_some_iff {α : Type} {key : α → κ} {val : α → ν} {k : κ} {v : ν} :
    ∀ {l : List α} {m : ExtTreeMap κ ν compare}, (l.map key).Nodup →
      ((l.foldl (fun m a => m.insert (key a) (val a)) m)[k]? = some v ↔
        (∃ a ∈ l, key a = k ∧ val a = v) ∨ k ∉ l.map key ∧ m[k]? = some v)
  | [], _, _ => by simp
  | a :: l, m, hnd => by
    obtain ⟨hnot, hnd⟩ := List.nodup_cons.1 hnd
    rw [List.foldl_cons, getElem?_foldl_insert_eq_some_iff hnd, getElem?_insert]
    by_cases hk : key a = k
    · subst hk
      have hne : ∀ b ∈ l, key b ≠ key a := fun b hb h => hnot (h ▸ List.mem_map_of_mem hb)
      constructor
      · rintro (⟨b, hb, hsame, -⟩ | ⟨-, h⟩)
        · exact absurd hsame (hne b hb)
        · rw [if_pos rfl, Option.some.injEq] at h
          exact .inl ⟨a, List.mem_cons_self, rfl, h⟩
      · rintro (⟨b, hb, hsame, hval⟩ | ⟨h, -⟩)
        · rcases List.mem_cons.1 hb with rfl | hb
          · exact .inr ⟨hnot, by rw [if_pos rfl, hval]⟩
          · exact absurd hsame (hne b hb)
        · exact absurd List.mem_cons_self h
    · simp [hk, Ne.symm hk]

/-! ## Collected entries -/

section Collected

variable {α β ε : Type} [DecidableEq α]

/-- The value of the last pair under a key. -/
def lastAt : List (α × β) → α → Option β
  | [], _ => none
  | (k, v) :: entries, key => (lastAt entries key).or (if k = key then some v else none)

theorem mem_of_lastAt {key : α} {v : β} : ∀ {entries : List (α × β)}, lastAt entries key = some v → (key, v) ∈ entries
  | [], h => by simp [lastAt] at h
  | (k, w) :: entries, h => by
    rw [lastAt, Option.or_eq_some_iff] at h
    rcases h with h | ⟨-, h⟩
    · exact List.mem_cons_of_mem _ (mem_of_lastAt h)
    · split at h
      · rename_i hk
        cases h
        rw [hk]
        exact List.mem_cons_self
      · cases h

theorem lastAt_of_mem {key : α} {v : β} : ∀ {entries : List (α × β)}, (entries.map Prod.fst).Nodup →
    (key, v) ∈ entries → lastAt entries key = some v
  | [], _, h => by simp at h
  | (k, w) :: entries, hnd, h => by
    obtain ⟨hnot, hnd⟩ := List.nodup_cons.1 hnd
    rw [lastAt]
    rcases List.mem_cons.1 h with heq | hmem
    · cases heq
      have hnone : lastAt entries key = none := by
        cases hlast : lastAt entries key with
        | none => rfl
        | some w => exact absurd (List.mem_map_of_mem (mem_of_lastAt hlast)) hnot
      simp [hnone]
    · rw [lastAt_of_mem hnd hmem, Option.some_or]

/-- Entries collected into a map one after the other, of which each must have
a key, kept under a name of its own, and a value to read. -/
theorem foldlM_insert_named_ok_iff {κ' : Type} {key : κ' → α} (hkey : Function.Injective key) {named : κ' → κ}
    (hnamed : Function.Injective named) (read : β → Option ν)
    {step : ExtTreeMap κ ν compare → α × β → Except ε (ExtTreeMap κ ν compare)}
    (hstep : ∀ m entry m', step m entry = .ok m' ↔
      ∃ k v, entry.1 = key k ∧ read entry.2 = some v ∧ m' = m.insert (named k) v) :
    ∀ {entries : List (α × β)} {m m' : ExtTreeMap κ ν compare}, entries.foldlM step m = .ok m' ↔
      (∀ entry ∈ entries, ∃ k v, entry.1 = key k ∧ read entry.2 = some v) ∧
        (∀ k, m'[named k]? = ((lastAt entries (key k)).bind read).or m[named k]?) ∧
        ∀ a, (∀ k, named k ≠ a) → m'[a]? = m[a]?
  | [], m, m' => by
    rw [List.foldlM_nil, Results.pure_ok_iff]
    simp only [List.not_mem_nil, false_implies, implies_true, true_and, lastAt, Option.bind_none, Option.none_or]
    constructor
    · intro h
      rw [h]
      exact ⟨fun _ => rfl, fun _ _ => rfl⟩
    · intro ⟨hnamed, hother⟩
      refine ExtTreeMap.ext_getElem? fun a => ?_
      by_cases ha : ∃ k, named k = a
      · obtain ⟨k, rfl⟩ := ha
        exact (hnamed k).symm
      · exact (hother a fun k hk => ha ⟨k, hk⟩).symm
  | entry :: entries, m, m' => by
    have hcons : ∀ {k v}, entry.1 = key k → read entry.2 = some v →
        (∀ e ∈ entries, ∃ k v, e.1 = key k ∧ read e.2 = some v) → ∀ a,
        ((lastAt (entry :: entries) (key a)).bind read).or m[named a]? =
          ((lastAt entries (key a)).bind read).or (m.insert (named k) v)[named a]? := by
      intro k v hk hv hrest a
      rw [lastAt, getElem?_insert]
      cases hlast : lastAt entries (key a) with
      | some w =>
        obtain ⟨-, x, -, hx⟩ := hrest _ (mem_of_lastAt hlast)
        simp [hx]
      | none =>
        rw [hk]
        by_cases hka : k = a
        · simp [hka, hv]
        · have hne : key k ≠ key a := fun h => hka (hkey h)
          have hne' : named k ≠ named a := fun h => hka (hnamed h)
          simp [hne, hne']
    have hinsert : ∀ {k v a}, (∀ k, named k ≠ a) → (m.insert (named k) v)[a]? = m[a]? := by
      intro k v a ha
      rw [getElem?_insert, if_neg (ha k)]
    rw [List.foldlM_cons, Results.bind_ok_iff]
    constructor
    · rintro ⟨next, hnext, hrest⟩
      obtain ⟨k, v, hk, hv, rfl⟩ := (hstep m entry next).1 hnext
      obtain ⟨hall, hlook, hother⟩ := (foldlM_insert_named_ok_iff hkey hnamed read hstep).1 hrest
      refine ⟨List.forall_mem_cons.2 ⟨⟨k, v, hk, hv⟩, hall⟩, fun a => ?_, fun a ha => ?_⟩
      · rw [hlook, hcons hk hv hall]
      · rw [hother a ha, hinsert ha]
    · rintro ⟨hall, hlook, hother⟩
      obtain ⟨⟨k, v, hk, hv⟩, hrest⟩ := List.forall_mem_cons.1 hall
      refine ⟨m.insert (named k) v, (hstep m entry _).2 ⟨k, v, hk, hv, rfl⟩, ?_⟩
      refine (foldlM_insert_named_ok_iff hkey hnamed read hstep).2 ⟨hrest, fun a => ?_, fun a ha => ?_⟩
      · rw [hlook, hcons hk hv hrest]
      · rw [hother a ha, hinsert ha]

/-- The same where each key is its own name. -/
theorem foldlM_insert_ok_iff {key : κ → α} (hkey : Function.Injective key) (read : β → Option ν)
    {step : ExtTreeMap κ ν compare → α × β → Except ε (ExtTreeMap κ ν compare)}
    (hstep : ∀ m entry m', step m entry = .ok m' ↔
      ∃ k v, entry.1 = key k ∧ read entry.2 = some v ∧ m' = m.insert k v)
    {entries : List (α × β)} {m m' : ExtTreeMap κ ν compare} : entries.foldlM step m = .ok m' ↔
      (∀ entry ∈ entries, ∃ k v, entry.1 = key k ∧ read entry.2 = some v) ∧
        ∀ k, m'[k]? = ((lastAt entries (key k)).bind read).or m[k]? := by
  rw [foldlM_insert_named_ok_iff hkey Function.injective_id read hstep]
  refine and_congr_right fun _ => and_iff_left fun a ha => ?_
  exact absurd rfl (ha a)

end Collected

/-! ## Maps written under other keys -/

section Encoded

variable {κ' ν' ε : Type} [Ord κ'] [TransOrd κ'] [LawfulEqOrd κ'] [DecidableEq κ'] {key : κ → κ'} {val : ν → ν'}

/-- A map's entries, each under another key and as another value. -/
def encoded (key : κ → κ') (val : ν → ν') (m : ExtTreeMap κ ν compare) : ExtTreeMap κ' ν' compare :=
  m.toList.foldl (fun written entry => written.insert (key entry.1) (val entry.2)) ∅

omit [DecidableEq κ] in
theorem mem_encoded_iff (hkey : Function.Injective key) {m : ExtTreeMap κ ν compare} {entry : κ' × ν'} :
    entry ∈ (encoded key val m).toList ↔ ∃ k v, m[k]? = some v ∧ (key k, val v) = entry := by
  have hnodup : (m.toList.map fun entry => key entry.1).Nodup := by
    have h := (nodup_keys m).map hkey
    rwa [← ExtTreeMap.map_fst_toList_eq_keys, List.map_map] at h
  obtain ⟨k', v'⟩ := entry
  rw [ExtTreeMap.mem_toList_iff_getElem?_eq_some, encoded, getElem?_foldl_insert_eq_some_iff hnodup]
  simp [ExtTreeMap.mem_toList_iff_getElem?_eq_some]

/-- Entries that are read back one after the other make the map they were
written from. -/
theorem foldlM_encoded (hkey : Function.Injective key) {m : ExtTreeMap κ ν compare}
    {step : ExtTreeMap κ ν compare → κ' × ν' → Except ε (ExtTreeMap κ ν compare)}
    (hstep : ∀ k v, m[k]? = some v → ∀ read, step read (key k, val v) = .ok (read.insert k v)) :
    (encoded key val m).toList.foldlM step ∅ = .ok m := by
  have hmem : ∀ entry ∈ (encoded key val m).toList, ∃ k v, m[k]? = some v ∧ (key k, val v) = entry :=
    fun entry hentry => (mem_encoded_iff hkey).1 hentry
  have hread : ∀ {entries : List (κ' × ν')} {read : ExtTreeMap κ ν compare},
      (∀ entry ∈ entries, ∃ k v, m[k]? = some v ∧ (key k, val v) = entry) → (∀ (k : κ) (v : ν), read[k]? = some v → m[k]? = some v) →
      ∃ read' : ExtTreeMap κ ν compare, entries.foldlM step read = .ok read' ∧ (∀ (k : κ) (v : ν), read'[k]? = some v → m[k]? = some v) ∧
        (∀ (k : κ) (v : ν), read[k]? = some v → read'[k]? = some v) ∧
        ∀ (k : κ) (v : ν), m[k]? = some v → (key k, val v) ∈ entries → read'[k]? = some v := by
    intro entries
    induction entries with
    | nil => exact fun {read} _ hfrom => ⟨read, rfl, hfrom, fun _ _ h => h, by simp⟩
    | cons entry entries ih =>
      intro read hall hfrom
      obtain ⟨⟨k, v, hk, rfl⟩, hrest⟩ := List.forall_mem_cons.1 hall
      have hnext : ∀ (a : κ) (w : ν), (read.insert k v)[a]? = some w → m[a]? = some w := by
        intro a w h
        rw [getElem?_insert] at h
        by_cases hka : k = a
        · rw [if_pos hka] at h
          rw [← hka, hk, h]
        · rw [if_neg hka] at h
          exact hfrom a w h
      obtain ⟨read', hread', hsound, hkept, hmade⟩ := ih hrest hnext
      have hown : read'[k]? = some v := hkept k v (by rw [getElem?_insert, if_pos rfl])
      refine ⟨read', ?_, hsound, fun a w h => ?_, fun a w ha hmem => ?_⟩
      · rw [List.foldlM_cons, hstep k v hk]
        exact hread'
      · by_cases hka : k = a
        · have hw : w = v := by
            rw [← Option.some.injEq, ← hfrom a w h, ← hk, hka]
          rw [← hka, hw, hown]
        · exact hkept a w (by rw [getElem?_insert, if_neg hka, h])
      · rcases List.mem_cons.1 hmem with heq | hmem
        · have hka : a = k := hkey (congrArg Prod.fst heq)
          subst hka
          rw [hown, ← hk, ha]
        · exact hmade a w ha hmem
  have hempty : ∀ (k : κ) (v : ν), (∅ : ExtTreeMap κ ν compare)[k]? = some v → m[k]? = some v := by simp
  obtain ⟨read, hfold, hsound, -, hmade⟩ := hread hmem hempty
  rw [hfold]
  refine congrArg Except.ok (ExtTreeMap.ext_getElem? fun k => Option.ext fun v => ⟨hsound k v, fun h => ?_⟩)
  exact hmade k v h ((mem_encoded_iff hkey).2 ⟨k, v, h, rfl⟩)

end Encoded

/-! ## Sets -/

section Sets

variable {s : ExtTreeSet κ compare} {k a : κ}

omit [DecidableEq κ] in
theorem mem_set_insert : a ∈ s.insert k ↔ k = a ∨ a ∈ s := by
  rw [ExtTreeSet.mem_insert]
  simp only [Std.compare_eq_iff_eq]

omit [DecidableEq κ] in
theorem mem_set_erase : a ∈ s.erase k ↔ k ≠ a ∧ a ∈ s := by
  rw [ExtTreeSet.mem_erase]
  simp only [ne_eq, Std.compare_eq_iff_eq]

theorem mem_set_extend {l : List κ} : a ∈ s.insertMany l ↔ a ∈ s ∨ a ∈ l := by
  rw [ExtTreeSet.mem_insertMany_list]
  simp

/-- A map's sets, one of them extended. -/
theorem mem_extended {ι : Type} [Ord ι] [TransOrd ι] [LawfulEqOrd ι] [DecidableEq ι]
    {m : ExtTreeMap ι (ExtTreeSet κ compare) compare} {i j : ι} {l : List κ} :
    a ∈ (m.insert i ((m.getD i ∅).insertMany l)).getD j ∅ ↔ a ∈ m.getD j ∅ ∨ i = j ∧ a ∈ l := by
  rw [getD_insert]
  split
  · next h =>
    subst h
    rw [mem_set_extend]
    simp
  · next h => simp [h]

end Sets

end TreeMaps
