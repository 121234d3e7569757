/-
Facts about fallible computations: what a bind that succeeded did, invariants
of a fold that may fail, and a fold that gathers what it finds of each element.
-/
import Mathlib.Control.Basic

namespace Results

theorem bind_ok_iff {ε α β} {x : Except ε α} {f : α → Except ε β} {b : β} :
    (x >>= f) = .ok b ↔ ∃ a, x = .ok a ∧ f a = .ok b := by
  cases x <;> simp [bind, Except.bind]

theorem pure_ok_iff {ε α} {a b : α} : (pure a : Except ε α) = .ok b ↔ a = b := by
  simp [pure, Except.pure]

theorem map_ok_iff {ε α β} {x : Except ε α} {f : α → β} {b : β} :
    (f <$> x) = .ok b ↔ ∃ a, x = .ok a ∧ f a = b := by
  cases x <;> simp [Functor.map, Except.map]

@[simp] theorem mapError_ok_iff {ε ε' α} {x : Except ε α} {f : ε → ε'} {a : α} :
    x.mapError f = .ok a ↔ x = .ok a := by
  cases x <;> simp [Except.mapError]

theorem toOption_eq_some_iff {ε α} {x : Except ε α} {a : α} : x.toOption = some a ↔ x = .ok a := by
  cases x <;> simp [Except.toOption]

theorem bind_error_iff {ε α β} {x : Except ε α} {f : α → Except ε β} {e : ε} :
    (x >>= f) = .error e ↔ x = .error e ∨ ∃ a, x = .ok a ∧ f a = .error e := by
  cases x <;> simp [bind, Except.bind]

theorem bind_answers {ε α β} {x : Except ε α} {f : α → Except ε β} (hx : ∃ a, x = .ok a)
    (hf : ∀ a, x = .ok a → ∃ b, f a = .ok b) : ∃ b, (x >>= f) = .ok b := by
  obtain ⟨a, rfl⟩ := hx
  exact hf a rfl

theorem map_error_iff {ε α β} {x : Except ε α} {f : α → β} {e : ε} : (f <$> x) = .error e ↔ x = .error e := by
  cases x <;> simp [Functor.map, Except.map]

theorem mapError_error_iff {ε ε' α} {x : Except ε α} {f : ε → ε'} {e : ε'} :
    x.mapError f = .error e ↔ ∃ e', x = .error e' ∧ f e' = e := by
  cases x <;> simp [Except.mapError]

theorem ite_ok_iff {ε α} {c : Prop} [Decidable c] {x y : Except ε α} {a : α} :
    (if c then x else y) = .ok a ↔ (c ∧ x = .ok a) ∨ (¬c ∧ y = .ok a) := by
  split <;> simp_all

/-- A loop that may fail keeps what each of its passes keeps; `Inv` also
sees the elements still to come. -/
theorem foldlM_inv {ε α β} {f : β → α → Except ε β} (Inv : List α → β → Prop)
    (keep : ∀ x rest acc acc', Inv (x :: rest) acc → f acc x = .ok acc' → Inv rest acc')
    {xs : List α} {start final : β} (hstart : Inv xs start) (h : xs.foldlM f start = .ok final) :
    Inv [] final := by
  induction xs generalizing start with
  | nil =>
    rw [List.foldlM_nil, pure_ok_iff] at h
    rw [← h]
    exact hstart
  | cons x rest ih =>
    rw [List.foldlM_cons, bind_ok_iff] at h
    obtain ⟨next, hnext, hrest⟩ := h
    exact ih (keep x rest start next hstart hnext) hrest

/-- What each pass adds one condition to, the loop adds all of them to. -/
theorem foldlM_iff {ε α β} {f : β → α → Except ε β} (Inv : List α → β → Prop) {E : β → Prop} {Q : α → Prop}
    (keep : ∀ x rest acc acc', Inv (x :: rest) acc → f acc x = .ok acc' → Inv rest acc' ∧ (E acc' ↔ E acc ∧ Q x))
    {xs : List α} {start final : β} (hstart : Inv xs start) (h : xs.foldlM f start = .ok final) :
    Inv [] final ∧ (E final ↔ E start ∧ ∀ x ∈ xs, Q x) := by
  induction xs generalizing start with
  | nil =>
    rw [List.foldlM_nil, pure_ok_iff] at h
    subst h
    exact ⟨hstart, by simp⟩
  | cons x rest ih =>
    rw [List.foldlM_cons, bind_ok_iff] at h
    obtain ⟨next, hnext, hrest⟩ := h
    obtain ⟨hinv, hone⟩ := keep x rest start next hstart hnext
    obtain ⟨hend, hall⟩ := ih hinv hrest
    refine ⟨hend, ?_⟩
    rw [hall, hone, List.forall_mem_cons, and_assoc]

/-- Two folds whose steps agree wherever the first succeeds. -/
theorem foldlM_ok_congr {ε α β} {f g : β → α → Except ε β} :
    ∀ {l : List α} {b r : β}, (∀ a ∈ l, ∀ b b', f b a = .ok b' → g b a = .ok b') →
      l.foldlM f b = .ok r → l.foldlM g b = .ok r
  | [], _, _, _, h => h
  | a :: l, b, r, hfg, h => by
    simp only [List.foldlM_cons, bind_ok_iff] at h ⊢
    obtain ⟨b', h1, h2⟩ := h
    exact ⟨b', hfg a (by simp) b b' h1, foldlM_ok_congr (fun a' ha' => hfg a' (by simp [ha'])) h2⟩

theorem foldlM_concat_ok {ε α β} {f : β → α → Except ε β} {l : List α} {a : α} {b r r' : β}
    (h : l.foldlM f b = .ok r) (ha : f r a = .ok r') : (l ++ [a]).foldlM f b = .ok r' := by
  rw [List.foldlM_append, h]
  simp only [List.foldlM_cons, List.foldlM_nil, bind_pure]
  exact ha

/-- Two runs from related starts: each step of the first that succeeds has its
counterpart in the second. -/
theorem foldlM_rel {ε α β γ} {f : β → α → Except ε β} {g : γ → α → Except ε γ} (R : β → γ → Prop) :
    ∀ {l : List α} {b : β} {c : γ} {r : β},
      (∀ a ∈ l, ∀ b c b', R b c → f b a = .ok b' → ∃ c', g c a = .ok c' ∧ R b' c') → R b c →
      l.foldlM f b = .ok r → ∃ r', l.foldlM g c = .ok r' ∧ R r r'
  | [], b, c, r, _, hbc, h => by
    rw [List.foldlM_nil, pure_ok_iff] at h
    exact ⟨c, rfl, h ▸ hbc⟩
  | a :: l, b, c, r, hstep, hbc, h => by
    rw [List.foldlM_cons, bind_ok_iff] at h
    obtain ⟨b', hb', h⟩ := h
    obtain ⟨c', hc', hbc'⟩ := hstep a List.mem_cons_self b c b' hbc hb'
    obtain ⟨r', hr', hend⟩ := foldlM_rel R (fun a' ha => hstep a' (List.mem_cons_of_mem a ha)) hbc' h
    exact ⟨r', by rw [List.foldlM_cons, hc']; exact hr', hend⟩

/-- A fold that succeeded took each of its steps. -/
theorem foldlM_ok_mem {ε α β} {f : β → α → Except ε β} :
    ∀ {l : List α} {b r : β}, l.foldlM f b = .ok r → ∀ a ∈ l, ∃ acc acc', f acc a = .ok acc'
  | [], _, _, _, _, ha => by cases ha
  | x :: l, b, r, h, a, ha => by
    rw [List.foldlM_cons, bind_ok_iff] at h
    obtain ⟨b', hx, hl⟩ := h
    rcases List.mem_cons.1 ha with rfl | ha
    · exact ⟨b, b', hx⟩
    · exact foldlM_ok_mem hl a ha

/-- A fold each of whose steps answers, answers. -/
theorem foldlM_total {ε α β} {f : β → α → Except ε β} :
    ∀ {l : List α} {b : β}, (∀ a ∈ l, ∀ acc, ∃ acc', f acc a = .ok acc') → ∃ r, l.foldlM f b = .ok r
  | [], b, _ => ⟨b, rfl⟩
  | a :: l, b, h => by
    obtain ⟨b', hb⟩ := h a List.mem_cons_self b
    obtain ⟨r, hr⟩ := foldlM_total (b := b') fun a' ha => h a' (List.mem_cons_of_mem a ha)
    exact ⟨r, by rw [List.foldlM_cons, hb]; exact hr⟩

/-- A fold fails at the first step that does. -/
theorem foldlM_error_iff {ε α β} {f : β → α → Except ε β} {e : ε} : ∀ {l : List α} {b : β},
    l.foldlM f b = .error e ↔ ∃ before a after b', l = before ++ a :: after ∧ before.foldlM f b = .ok b' ∧ f b' a = .error e
  | [], b => by simp [pure, Except.pure]
  | x :: l, b => by
    rw [List.foldlM_cons, bind_error_iff]
    constructor
    · rintro (hx | ⟨b', hx, hl⟩)
      · exact ⟨[], x, l, b, rfl, rfl, hx⟩
      · obtain ⟨before, a, after, b'', rfl, hbefore, ha⟩ := foldlM_error_iff.1 hl
        exact ⟨x :: before, a, after, b'', rfl, by rw [List.foldlM_cons, hx]; exact hbefore, ha⟩
    · rintro ⟨before, a, after, b', heq, hbefore, ha⟩
      cases before with
      | nil =>
        obtain ⟨rfl, rfl⟩ := List.cons.inj heq
        obtain rfl := pure_ok_iff.1 hbefore
        exact .inl ha
      | cons y before =>
        obtain ⟨rfl, rfl⟩ := List.cons.inj heq
        rw [List.foldlM_cons, bind_ok_iff] at hbefore
        obtain ⟨b'', hx, hbefore⟩ := hbefore
        exact .inr ⟨b'', hx, foldlM_error_iff.2 ⟨before, a, after, b', rfl, hbefore, ha⟩⟩

/-- A computation that answers, or fails in one way alone. -/
def OkOr {ε α} (e : ε) (x : Except ε α) : Prop := (∃ a, x = .ok a) ∨ x = .error e

theorem OkOr.ok {ε α} {e : ε} {x : Except ε α} {a : α} (h : x = .ok a) : OkOr e x := .inl ⟨a, h⟩

theorem OkOr.bind {ε α β} {e : ε} {x : Except ε α} {f : α → Except ε β} (hx : OkOr e x)
    (hf : ∀ a, x = .ok a → OkOr e (f a)) : OkOr e (x >>= f) := by
  rcases hx with ⟨a, rfl⟩ | rfl
  · exact hf a rfl
  · exact .inr rfl

theorem OkOr.foldlM {ε α β} {e : ε} {f : β → α → Except ε β} : ∀ {l : List α} {b : β},
    (∀ a ∈ l, ∀ acc, OkOr e (f acc a)) → OkOr e (l.foldlM f b)
  | [], b, _ => .inl ⟨b, rfl⟩
  | a :: l, b, h => by
    rw [List.foldlM_cons]
    refine OkOr.bind (h a List.mem_cons_self b) fun b' _ => ?_
    exact OkOr.foldlM fun a' ha => h a' (List.mem_cons_of_mem a ha)

/-- A loop of checks passes what each of them passes. -/
theorem forM_ok_iff {ε α} {check : α → Except ε PUnit} :
    ∀ {l : List α}, l.forM check = .ok ⟨⟩ ↔ ∀ a ∈ l, check a = .ok ⟨⟩
  | [] => by simp [List.forM, pure, Except.pure]
  | b :: l => by
    rw [List.forall_mem_cons, ← forM_ok_iff (l := l)]
    constructor
    · intro h
      obtain ⟨_, hb, hl⟩ := bind_ok_iff.1 (show (check b >>= fun _ => l.forM check) = .ok ⟨⟩ from h)
      exact ⟨hb, hl⟩
    · rintro ⟨hb, hl⟩
      exact bind_ok_iff.2 ⟨⟨⟩, hb, hl⟩

theorem forM_ok {ε α} {check : α → Except ε PUnit} {l : List α} (h : l.forM check = .ok ⟨⟩) :
    ∀ a ∈ l, check a = .ok ⟨⟩ := forM_ok_iff.1 h

/-! ## Gathering -/

section Gather

variable {ε α β γ ν : Type} [DecidableEq α] {step : β → α → Except ε β} {find : α → Option ν} {put : β → α → ν → β}
  {look : β → α → γ} {u : ν → γ → γ}

/-- What a loop leaves that looks each element up and puts what it finds at the
element's own place, by an update that a second time changes nothing. -/
theorem foldlM_gather (hput : ∀ s x v a, look (put s x v) a = if x = a then u v (look s a) else look s a)
    (hagain : ∀ v c, u v (u v c) = u v c) (hext : ∀ s s', (∀ a, look s a = look s' a) → s = s') :
    ∀ {xs : List α} {s s' : β}, (∀ x ∈ xs, ∀ s s', step s x = .ok s' ↔ ∃ v, find x = some v ∧ s' = put s x v) →
      (xs.foldlM step s = .ok s' ↔ (∀ x ∈ xs, ∃ v, find x = some v) ∧
        ∀ a, look s' a = if a ∈ xs then (find a).elim (look s a) (u · (look s a)) else look s a)
  | [], s, s', _ => by
    rw [List.foldlM_nil, pure_ok_iff]
    simp only [List.not_mem_nil, false_implies, implies_true, true_and, if_false]
    constructor
    · intro h a
      rw [h]
    · intro h
      exact (hext s' s h).symm
  | x :: xs, s, s', hstep => by
    obtain ⟨hfirst, hsteps⟩ := List.forall_mem_cons.1 hstep
    have hcons : ∀ {v}, find x = some v → ∀ a,
        (if a ∈ xs then (find a).elim (look (put s x v) a) (u · (look (put s x v) a)) else look (put s x v) a) =
          if a ∈ x :: xs then (find a).elim (look s a) (u · (look s a)) else look s a := by
      intro v hv a
      rw [hput]
      by_cases hxa : x = a
      · subst hxa
        simp [hv, hagain]
      · simp [hxa, Ne.symm hxa]
    rw [List.foldlM_cons, bind_ok_iff, List.forall_mem_cons]
    constructor
    · rintro ⟨next, hnext, hrest⟩
      obtain ⟨v, hv, rfl⟩ := (hfirst s next).1 hnext
      obtain ⟨hall, hlook⟩ := (foldlM_gather hput hagain hext hsteps).1 hrest
      exact ⟨⟨⟨v, hv⟩, hall⟩, fun a => by rw [hlook, hcons hv]⟩
    · rintro ⟨⟨⟨v, hv⟩, hall⟩, hlook⟩
      refine ⟨put s x v, (hfirst s _).2 ⟨v, hv, rfl⟩, (foldlM_gather hput hagain hext hsteps).2 ⟨hall, fun a => ?_⟩⟩
      rw [hlook, hcons hv]

/-- Where such a loop succeeds, and with what: every element is found, its place
updated, and every other left alone. -/
theorem foldlM_gather_ok_iff (hput : ∀ s x v a, look (put s x v) a = if x = a then u v (look s a) else look s a)
    (hagain : ∀ v c, u v (u v c) = u v c) (hext : ∀ s s', (∀ a, look s a = look s' a) → s = s')
    {xs : List α} {s s' : β} (hstep : ∀ x ∈ xs, ∀ s s', step s x = .ok s' ↔ ∃ v, find x = some v ∧ s' = put s x v) :
    xs.foldlM step s = .ok s' ↔
      (∀ x ∈ xs, ∃ v, find x = some v ∧ look s' x = u v (look s x)) ∧ ∀ a, a ∉ xs → look s' a = look s a := by
  rw [foldlM_gather hput hagain hext hstep]
  constructor
  · rintro ⟨hall, hlook⟩
    refine ⟨fun x hx => ?_, fun a ha => by rw [hlook, if_neg ha]⟩
    obtain ⟨v, hv⟩ := hall x hx
    exact ⟨v, hv, by rw [hlook, if_pos hx, hv, Option.elim_some]⟩
  · rintro ⟨hall, hrest⟩
    refine ⟨fun x hx => (hall x hx).imp fun _ hv => hv.1, fun a => ?_⟩
    by_cases ha : a ∈ xs
    · obtain ⟨v, hv, hlook⟩ := hall a ha
      rw [if_pos ha, hv, Option.elim_some, hlook]
    · rw [if_neg ha, hrest a ha]

end Gather

end Results
