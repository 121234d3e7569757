/-
A run recorded as a list, its latest entry last: how a split of the longer
record relates to a split of the shorter one, properties of every prefix that
ends at an entry of one kind, and what the last entry to say something says.
-/
import Mathlib.Data.List.Basic

namespace Traces

variable {α : Type}

/-- Where an entry of a record one longer stands: at its end, or where it
stood before. -/
theorem concat_eq_split {l before after : List α} {a x : α} :
    l ++ [a] = before ++ x :: after ↔
      before = l ∧ x = a ∧ after = [] ∨ ∃ after', after = after' ++ [a] ∧ l = before ++ x :: after' := by
  constructor
  · intro h
    rcases List.eq_nil_or_concat after with rfl | ⟨after', b, rfl⟩
    · have h := List.append_inj' h rfl
      obtain ⟨h1, h2⟩ := h
      cases h2
      exact .inl ⟨h1.symm, rfl, rfl⟩
    · rw [List.concat_eq_append, ← List.cons_append, ← List.append_assoc] at h
      obtain ⟨h1, h2⟩ := List.append_inj' h rfl
      cases h2
      exact .inr ⟨after', List.concat_eq_append, h1⟩
  · rintro (⟨rfl, rfl, rfl⟩ | ⟨after', rfl, rfl⟩)
    · rfl
    · simp

/-- Where an entry of two records on end stands: in the first, or in the
second. -/
theorem append_eq_split {l m before after : List α} {x : α} (h : l ++ m = before ++ x :: after) :
    (∃ after', l = before ++ x :: after' ∧ after = after' ++ m) ∨
      ∃ before', before = l ++ before' ∧ m = before' ++ x :: after := by
  rcases List.append_eq_append_iff.1 h with ⟨before', hbefore, hm⟩ | ⟨tail, hl, htail⟩
  · exact .inr ⟨before', hbefore, hm⟩
  · cases tail with
    | nil =>
      rw [List.append_nil] at hl
      exact .inr ⟨[], by simp [hl], htail.symm⟩
    | cons y after' =>
      rw [List.cons_append, List.cons.injEq] at htail
      obtain ⟨rfl, htail⟩ := htail
      exact .inl ⟨after', hl, htail⟩

/-- The first entry of a record that `p` holds of. -/
theorem exists_first {p : α → Prop} {l : List α} {x : α} (hmem : x ∈ l) (hp : p x) :
    ∃ before first after, l = before ++ first :: after ∧ p first ∧ ∀ y ∈ before, ¬p y := by
  induction l with
  | nil => cases hmem
  | cons y l ih =>
    by_cases hy : p y
    · exact ⟨[], y, l, rfl, hy, by simp⟩
    · rcases List.mem_cons.1 hmem with rfl | hmem
      · exact absurd hp hy
      · obtain ⟨before, first, after, rfl, hfirst, hbefore⟩ := ih hmem
        refine ⟨y :: before, first, after, rfl, hfirst, fun z hz => ?_⟩
        rcases List.mem_cons.1 hz with rfl | hz
        · exact hy
        · exact hbefore z hz

/-- The last entry of a record that `p` holds of. -/
theorem exists_last {p : α → Prop} {l : List α} {x : α} (hmem : x ∈ l) (hp : p x) :
    ∃ before last after, l = before ++ last :: after ∧ p last ∧ ∀ y ∈ after, ¬p y := by
  obtain ⟨before, last, after, hl, hlast, hbefore⟩ := exists_first (List.mem_reverse.2 hmem) hp
  refine ⟨after.reverse, last, before.reverse, ?_, hlast, fun y hy => hbefore y (List.mem_reverse.1 hy)⟩
  rw [← List.reverse_reverse l, hl]
  simp

/-- At every entry `K` picks, `P` holds of what was recorded before it. -/
def Before (K : α → Prop) (P : List α → α → Prop) (l : List α) : Prop :=
  ∀ before x after, l = before ++ x :: after → K x → P before x

theorem before_nil {K : α → Prop} {P : List α → α → Prop} : Before K P [] := by
  intro before x after h
  simp at h

theorem Before.of_append {K : α → Prop} {P : List α → α → Prop} {l m : List α} (h : Before K P (l ++ m)) :
    Before K P l := by
  intro before x after heq hk
  exact h before x (after ++ m) (by simp [heq]) hk

/-- A longer record adds its own last entry to what is to be shown. -/
theorem before_concat {K : α → Prop} {P : List α → α → Prop} {l : List α} {a : α} :
    Before K P (l ++ [a]) ↔ Before K P l ∧ (K a → P l a) := by
  constructor
  · intro h
    refine ⟨fun before x after heq hk => ?_, fun hk => h l a [] rfl hk⟩
    exact h before x (after ++ [a]) (by simp [heq]) hk
  · rintro ⟨h, ha⟩ before x after heq hk
    rcases concat_eq_split.1 heq with ⟨rfl, rfl, -⟩ | ⟨after', -, heq⟩
    · exact ha hk
    · exact h before x after' heq hk

/-! ## The last word -/

section LastWord

variable {β : Type} {f : α → Option β}

/-- What the last entry that says something says. -/
def lastWord (f : α → Option β) (l : List α) : Option β := l.reverse.findSome? f

theorem lastWord_append {l m : List α} : lastWord f (l ++ m) = (lastWord f m).or (lastWord f l) := by
  unfold lastWord
  rw [List.reverse_append, List.findSome?_append]

/-- A record with a suffix of itself on its end has the last word it had. -/
theorem lastWord_replay (l : List α) (cut : Nat) : lastWord f (l ++ l.drop cut) = lastWord f l := by
  have hsplit : lastWord f l = (lastWord f (l.drop cut)).or (lastWord f (l.take cut)) := by
    rw [← lastWord_append, List.take_append_drop]
  rw [lastWord_append, hsplit]
  cases lastWord f (l.drop cut) with
  | none => rfl
  | some word => rfl

end LastWord

end Traces
