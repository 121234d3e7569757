/-
Tables with a primary key: rows no two of which share it, and what the four
statements a store issues do to the row of each key.
-/
import Mathlib.Data.List.Nodup

namespace Tables

variable {ρ κ : Type} [DecidableEq κ] {key : ρ → κ}

/-- Rows with distinct keys, in no order a query may rely on. -/
structure Table (key : ρ → κ) where
  rows : List ρ
  distinct : (rows.map key).Nodup

/-- What becomes of a row an insert conflicts with, its key untouched. -/
structure Conflict (key : ρ → κ) where
  merge : ρ → ρ → ρ
  key_merge : ∀ old new, key (merge old new) = key new

/-- What an update does to a row, its key untouched. -/
structure Change (key : ρ → κ) where
  apply : ρ → ρ
  key_apply : ∀ row, key (apply row) = key row

namespace Table

/-- The row of a key. -/
def find (t : Table key) (k : κ) : Option ρ := t.rows.find? fun row => key row = k

def empty : Table key := ⟨[], List.nodup_nil⟩

/-- The rows, one of them replaced where it conflicts. -/
def merged (c : Conflict key) (new : ρ) (rows : List ρ) : List ρ :=
  rows.map fun row => if key row = key new then c.merge row new else row

theorem keys_merged (c : Conflict key) (new : ρ) (rows : List ρ) :
    (merged c new rows).map key = rows.map key := by
  unfold merged
  rw [List.map_map]
  refine List.map_congr_left fun row _ => ?_
  show key (if key row = key new then c.merge row new else row) = key row
  split
  · next h => rw [c.key_merge, h]
  · rfl

/-- `INSERT … ON CONFLICT DO UPDATE`. -/
def upsert (t : Table key) (c : Conflict key) (new : ρ) : Table key :=
  if h : key new ∈ t.rows.map key then
    ⟨merged c new t.rows, by rw [keys_merged]; exact t.distinct⟩
  else
    ⟨t.rows ++ [new], by
      rw [List.map_append, List.nodup_append]
      exact ⟨t.distinct, List.nodup_singleton _, fun a ha b hb => by
        rw [List.map_singleton, List.mem_singleton] at hb
        exact fun heq => h (hb ▸ heq ▸ ha)⟩⟩

/-- `DELETE` by key. -/
def delete (t : Table key) (k : κ) : Table key :=
  ⟨t.rows.filter fun row => key row ≠ k, t.distinct.sublist (List.filter_sublist.map _)⟩

/-- `UPDATE` by key. -/
def update (t : Table key) (k : κ) (change : Change key) : Table key :=
  ⟨t.rows.map fun row => if key row = k then change.apply row else row, by
    rw [List.map_map]
    refine (congrArg List.Nodup (List.map_congr_left fun row _ => ?_)).mpr t.distinct
    show key (if key row = k then change.apply row else row) = key row
    split
    · exact change.key_apply row
    · rfl⟩

/-- `UPDATE` of every row a condition selects. -/
def updateAll (t : Table key) (selects : ρ → Bool) (change : Change key) : Table key :=
  ⟨t.rows.map fun row => if selects row then change.apply row else row, by
    rw [List.map_map]
    refine (congrArg List.Nodup (List.map_congr_left fun row _ => ?_)).mpr t.distinct
    show key (if selects row then change.apply row else row) = key row
    split
    · exact change.key_apply row
    · rfl⟩

end Table

/-! ## The row of a key after a statement -/

section Find

variable {t : Table key} {k : κ}

theorem find_key {row : ρ} (h : t.find k = some row) : key row = k := by
  have := List.find?_some h
  simpa using this

/-- Each row is the row of its key. -/
theorem find_of_mem {row : ρ} (h : row ∈ t.rows) : t.find (key row) = some row := by
  obtain ⟨rows, distinct⟩ := t
  show rows.find? _ = some row
  induction rows with
  | nil => cases h
  | cons first rest ih =>
    rw [List.map_cons, List.nodup_cons] at distinct
    by_cases hfirst : key first = key row
    · rw [List.find?_cons_of_pos (by simpa using hfirst)]
      rcases List.mem_cons.1 h with rfl | hin
      · rfl
      · exact absurd (List.mem_map.2 ⟨row, hin, hfirst.symm⟩) distinct.1
    · rw [List.find?_cons_of_neg (by simpa using hfirst)]
      rcases List.mem_cons.1 h with rfl | hin
      · exact absurd rfl hfirst
      · exact ih distinct.2 hin

/-- A map that keeps keys is seen through the lookup. -/
theorem find?_map_of_key {f : ρ → ρ} (hf : ∀ row, key (f row) = key row) (rows : List ρ) :
    (rows.map f).find? (fun row => key row = k) = (rows.find? fun row => key row = k).map f := by
  rw [List.find?_map]
  congr 2
  funext row
  show decide (key (f row) = k) = decide (key row = k)
  rw [hf]

@[simp] theorem find_update {change : Change key} {k' : κ} :
    (t.update k' change).find k = (t.find k).map fun row => if key row = k' then change.apply row else row := by
  refine find?_map_of_key (fun row => ?_) _
  split
  · exact change.key_apply row
  · rfl

@[simp] theorem find_updateAll {selects : ρ → Bool} {change : Change key} :
    (t.updateAll selects change).find k = (t.find k).map fun row => if selects row then change.apply row else row := by
  refine find?_map_of_key (fun row => ?_) _
  split
  · exact change.key_apply row
  · rfl

theorem find_delete_self : (t.delete k).find k = none := by
  unfold Table.find Table.delete
  rw [List.find?_eq_none]
  intro row hrow
  simpa using (List.mem_filter.1 hrow).2

theorem find_delete_of_ne {k' : κ} (h : k ≠ k') : (t.delete k').find k = t.find k := by
  unfold Table.find Table.delete
  rw [List.find?_filter]
  congr 1
  funext row
  by_cases hk : key row = k
  · simp [hk, h]
  · simp [hk]

theorem find_merged {c : Conflict key} {new : ρ} {rows : List ρ} :
    (Table.merged c new rows).find? (fun row => key row = k) =
      (rows.find? fun row => key row = k).map fun row => if key row = key new then c.merge row new else row := by
  refine find?_map_of_key (fun row => ?_) _
  split
  · next h => rw [c.key_merge, h]
  · rfl

theorem find_none_of_not_mem (h : k ∉ t.rows.map key) : t.find k = none := by
  unfold Table.find
  rw [List.find?_eq_none]
  intro row hrow hk
  exact h (List.mem_map.2 ⟨row, hrow, by simpa using hk⟩)

theorem find_upsert_self {c : Conflict key} {new : ρ} :
    (t.upsert c new).find (key new) = some (match t.find (key new) with
      | some old => c.merge old new
      | none => new) := by
  unfold Table.upsert
  split
  · next hmem =>
    obtain ⟨row, hrow, hkey⟩ := List.mem_map.1 hmem
    obtain ⟨old, hold⟩ : ∃ old, t.find (key new) = some old := by
      rw [← Option.isSome_iff_exists]
      exact List.find?_isSome.2 ⟨row, hrow, by simpa using hkey⟩
    rw [hold]
    show (Table.merged c new t.rows).find? _ = _
    rw [find_merged]
    show (t.find (key new)).map _ = _
    rw [hold]
    simp [find_key hold]
  · next hmem =>
    rw [find_none_of_not_mem hmem]
    show (t.rows ++ [new]).find? _ = _
    rw [List.find?_append]
    show ((t.find (key new)).or _) = _
    rw [find_none_of_not_mem hmem]
    simp

theorem find_upsert_of_ne {c : Conflict key} {new : ρ} (h : k ≠ key new) :
    (t.upsert c new).find k = t.find k := by
  unfold Table.upsert
  split
  · show (Table.merged c new t.rows).find? _ = _
    rw [find_merged]
    show (t.find k).map _ = t.find k
    cases hold : t.find k with
    | none => rfl
    | some old =>
      have hkey : key old ≠ key new := by rw [find_key hold]; exact h
      simp [hkey]
  · show (t.rows ++ [new]).find? _ = _
    rw [List.find?_append]
    show ((t.find k).or _) = _
    simp [Ne.symm h]

end Find

end Tables
