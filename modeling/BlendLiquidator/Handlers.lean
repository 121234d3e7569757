/-
Programs whose calls are carried out by other programs.

`Proc.carried` puts in place of each call the program that carries it out, with
a state handed from one call to the next. What is known of a program over its
own calls is known of it carried out, where each call's program does what the
call was answered with: `Keeps.carried` is that simulation, over a relation of
the two records. `Keeps.part` is its simple case: calls made among more calls,
by a part whose failure is a value.
-/
import BlendLiquidator.Calls

namespace Calls

variable {Op Op' : Type} {Ans : Op → Type} {Ans' : Op' → Type} {ε ε' σ α β : Type}

namespace Proc

/-- The failure of a program as a value. -/
def caught : Proc Op Ans ε α → Proc Op Ans ε' (Except ε α)
  | .ret a => .ret (.ok a)
  | .fail e => .ret (.error e)
  | .op o next => .op o fun a => (next a).caught

/-- The program from a state on, with each call carried out by `handler`. -/
def carried (handler : σ → (o : Op) → Proc Op' Ans' ε (Ans o × σ)) : σ → Proc Op Ans ε α → Proc Op' Ans' ε (α × σ)
  | s, .ret a => .ret (a, s)
  | _, .fail e => .fail e
  | s, .op o next => handler s o >>= fun answer => (next answer.1).carried handler answer.2

end Proc

/-! ## What is kept -/

section Rules

variable {A : List (Entry Ans) → (o : Op) → Ans o → Prop} {P : List (Entry Ans) → Op → Prop}
  {Q : List (Entry Ans) → Except ε α → Prop} {l : List (Entry Ans)} {A' : List (Entry Ans') → (o : Op') → Ans' o → Prop}
  {P' : List (Entry Ans') → Op' → Prop} {l' : List (Entry Ans')}

/-- Nothing is asked of a program. -/
theorem Keeps.any {m : Proc Op Ans ε α} : Keeps A (fun _ _ => True) (fun _ _ => True) l m := by
  induction m generalizing l with
  | ret a => trivial
  | fail e => trivial
  | op o next ih => exact ⟨trivial, fun a _ => ih a⟩

/-- What a program keeps over the record of its calls, it keeps as a part of one
with more calls, its failure a value, over the record `R` relates to it. -/
theorem Keeps.part {inj : Op → Op'} {back : ∀ o, Ans' (inj o) → Ans o} {ε'' : Type} {wrap : ε'' → ε'}
    {R : List (Entry Ans) → List (Entry Ans') → Prop}
    (hcall : ∀ l l' o, R l l' → P l o → P' l' (inj o) ∧
      ∀ a, A' l' (inj o) a → A l o (back o a) ∧ R (l ++ [⟨o, back o a⟩]) (l' ++ [⟨inj o, a⟩]))
    {m : Proc Op Ans ε α} (hm : Keeps A P Q l m) (hR : R l l') :
    Keeps A' P' (fun l'' r => ∃ l answer, r = .ok answer ∧ R l l'' ∧ Q l answer) l' (m.caught.embed inj back wrap) := by
  induction m generalizing l l' with
  | ret a => exact ⟨l, .ok a, rfl, hR, hm⟩
  | fail e => exact ⟨l, .error e, rfl, hR, hm⟩
  | op o next ih =>
    obtain ⟨hallowed, hnext⟩ := hcall l l' o hR hm.1
    exact ⟨hallowed, fun a ha => ih _ (hm.2 _ (hnext a ha).1) (hnext a ha).2⟩

/-- What a program keeps over the record of its calls, it keeps carried out over
the record and the state `R` relates to it, if each call's program does what its
answer says. -/
theorem Keeps.carried {R : List (Entry Ans) → σ → List (Entry Ans') → Prop} {E : List (Entry Ans') → ε → Prop}
    {handler : σ → (o : Op) → Proc Op' Ans' ε (Ans o × σ)}
    (hcall : ∀ l s l' o, R l s l' → P l o → Keeps A' P' (fun l'' r =>
      (∀ a s', r = .ok (a, s') → A l o a ∧ R (l ++ [⟨o, a⟩]) s' l'') ∧ ∀ e, r = .error e → E l'' e) l' (handler s o))
    {m : Proc Op Ans ε α} {s : σ} (hm : Keeps A P Q l m) (hR : R l s l') :
    Keeps A' P' (fun l'' r => (∀ a s', r = .ok (a, s') → ∃ l, R l s' l'' ∧ Q l (.ok a)) ∧
      ∀ e, r = .error e → (∃ l s, R l s l'' ∧ Q l (.error e)) ∨ E l'' e) l' (m.carried handler s) := by
  induction m generalizing l l' s with
  | ret a =>
    refine ⟨fun a' s' heq => ?_, fun e heq => by cases heq⟩
    cases heq
    exact ⟨l, hR, hm⟩
  | fail e =>
    refine ⟨fun a' s' heq => (by cases heq), fun e' heq => ?_⟩
    cases heq
    exact .inl ⟨l, s, hR, hm⟩
  | op o next ih =>
    refine Keeps.bind (hcall l s l' o hR hm.1) (fun l'' answer h => ?_) fun l'' e h => ?_
    · obtain ⟨a, s'⟩ := answer
      obtain ⟨ha, hR'⟩ := h.1 a s' rfl
      exact ih a (hm.2 a ha) hR'
    · refine ⟨fun a s' heq => (by cases heq), fun e' heq => ?_⟩
      cases heq
      exact .inr (h.2 e rfl)

end Rules

/-! ## Programs on their way -/

/-- A program on its way: what is left of it, and the record of its calls. -/
structure Ongoing (Op : Type) (Ans : Op → Type) (ε α : Type) where
  left : Proc Op Ans ε α
  record : List (Entry Ans) := []

namespace Ongoing

/-- The call it waits on is answered, if `world` has an answer. -/
def answered (p : Ongoing Op Ans ε α) (world : (o : Op) → Option (Ans o)) : Ongoing Op Ans ε α :=
  match p.left with
  | .op o next =>
    match world o with
    | some a => { left := next a, record := p.record ++ [⟨o, a⟩] }
    | none => p
  | .ret _ | .fail _ => p

variable {A : List (Entry Ans) → (o : Op) → Ans o → Prop} {P : List (Entry Ans) → Op → Prop}
  {Q : List (Entry Ans) → Except ε α → Prop} {p : Ongoing Op Ans ε α} {world : (o : Op) → Option (Ans o)}

/-- It waits on, or takes one answer. -/
theorem answered_cases : p.answered world = p ∨ ∃ o next a, p.left = .op o next ∧ world o = some a ∧
    p.answered world = { left := next a, record := p.record ++ [⟨o, a⟩] } := by
  obtain ⟨left, record⟩ := p
  cases left with
  | ret a => exact .inl rfl
  | fail e => exact .inl rfl
  | op o next =>
    cases hworld : world o with
    | none => exact .inl (by simp [answered, hworld])
    | some a => exact .inr ⟨o, next, a, rfl, hworld, by simp [answered, hworld]⟩

/-- What the whole program keeps is kept by what is left of it, whatever it is
answered. -/
theorem keeps_answered (h : Keeps (fun _ _ _ => True) P Q p.record p.left) :
    Keeps (fun _ _ _ => True) P Q (p.answered world).record (p.answered world).left := by
  rcases p.answered_cases with heq | ⟨o, next, a, hleft, -, heq⟩
  · rw [heq]
    exact h
  · rw [heq]
    rw [hleft] at h
    exact h.2 a trivial

/-- The call it waits on is one it may make. -/
theorem allowed {o : Op} {next : Ans o → Proc Op Ans ε α} (h : Keeps A P Q p.record p.left)
    (hleft : p.left = .op o next) : P p.record o := by
  rw [hleft] at h
  exact h.1

end Ongoing

end Calls
