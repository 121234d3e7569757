/-
Programs that talk to a world they do not control, and a Hoare logic for them.

A program is run against an oracle: at each moment of the run the world would
answer every possible call in some way, and a call takes the answer of its
own moment and moves time on by one. Nothing relates one moment's answers to
another's, so a statement about every oracle is a statement about every
order and every pattern of answers and failures. A loop with no bound of its
own takes fuel; a program that ran out of it is `running`, with the state it
had reached, so that a triple over `running` is a statement about every
prefix of an endless run.

The rules are per construct: a triple of a composed program is found by reading
the program, not by unfolding it.
-/
import Mathlib.Control.Basic

namespace Oracle

variable {μ σ ε ε' α β : Type}

/-- How a program stands: finished, failed, or still running. -/
inductive Res (ε α : Type) where
  | ok (a : α)
  | err (e : ε)
  | running
  deriving Repr, DecidableEq

/-- A program over a world of moments `μ` and a state `σ`. -/
def Prog (μ σ ε α : Type) : Type := (Nat → μ) → Nat → σ → Res ε α × Nat × σ

namespace Prog

protected def pure (a : α) : Prog μ σ ε α := fun _ t s => (.ok a, t, s)

protected def bind (m : Prog μ σ ε α) (f : α → Prog μ σ ε β) : Prog μ σ ε β := fun env t s =>
  match m env t s with
  | (.ok a, t, s) => f a env t s
  | (.err e, t, s) => (.err e, t, s)
  | (.running, t, s) => (.running, t, s)

instance : Monad (Prog μ σ ε) where
  pure := Prog.pure
  bind := Prog.bind

/-- Reads the moment. -/
def ask (f : μ → α) : Prog μ σ ε α := fun env t s => (.ok (f (env t)), t + 1, s)

/-- A computation that may fail. -/
def lift (x : Except ε α) : Prog μ σ ε α := fun _ t s =>
  match x with
  | .ok a => (.ok a, t, s)
  | .error e => (.err e, t, s)

def fail (e : ε) : Prog μ σ ε α := fun _ t s => (.err e, t, s)

/-- Reads the state. -/
def read (g : σ → α) : Prog μ σ ε α := fun _ t s => (.ok (g s), t, s)

def modify (g : σ → σ) : Prog μ σ ε Unit := fun _ t s => (.ok (), t, g s)

/-- The failure of `m` as a value; what it did to the state stays done. -/
def caught (m : Prog μ σ ε α) : Prog μ σ ε' (Except ε α) := fun env t s =>
  match m env t s with
  | (.ok a, t, s) => (.ok (.ok a), t, s)
  | (.err e, t, s) => (.ok (.error e), t, s)
  | (.running, t, s) => (.running, t, s)

/-- A program of a part of the world and of the state. -/
def within {μ' σ' : Type} (view : μ' → μ) (get : σ' → σ) (put : σ → σ' → σ') (m : Prog μ σ ε α) :
    Prog μ' σ' ε α := fun env t s =>
  match m (fun i => view (env i)) t (get s) with
  | (r, t, part) => (r, t, put part s)

/-- A program of a part of the world, run from a state of its own: how it ended
and the state it left, as values. -/
def inside {μ' σ' : Type} (view : μ' → μ) (start : σ' → σ) (m : Prog μ σ ε α) :
    Prog μ' σ' ε' (Except ε α × σ) := fun env t s =>
  match m (fun i => view (env i)) t (start s) with
  | (.ok a, t, part) => (.ok (.ok a, part), t, s)
  | (.err e, t, part) => (.ok (.error e, part), t, s)
  | (.running, t, _) => (.running, t, s)

/-- Repeats `body` until it answers. -/
def repeatUntil (body : Prog μ σ ε (Option α)) : Nat → Prog μ σ ε α
  | 0 => fun _ t s => (.running, t, s)
  | fuel + 1 => do
    match ← body with
    | some a => pure a
    | none => repeatUntil body fuel

end Prog

open Prog

/-- A composed program that answers ran its first part to an answer. -/
theorem bind_answers {m : Prog μ σ ε α} {f : α → Prog μ σ ε β} {env : Nat → μ} {t : Nat} {s : σ} {b : β}
    (h : ((m >>= f) env t s).1 = .ok b) :
    ∃ a t' s', m env t s = (.ok a, t', s') ∧ (m >>= f) env t s = f a env t' s' := by
  have hrun : (m >>= f) env t s = Prog.bind m f env t s := rfl
  rw [hrun] at h ⊢
  unfold Prog.bind at h ⊢
  generalize m env t s = out at h ⊢
  obtain ⟨r, t', s'⟩ := out
  cases r with
  | ok a => exact ⟨a, t', s', rfl, rfl⟩
  | err e => cases h
  | running => cases h

/-- From a state where `P` holds, however the program stands, `Q` holds. -/
def Triple (env : Nat → μ) (P : σ → Prop) (m : Prog μ σ ε α) (Q : Res ε α → σ → Prop) : Prop :=
  ∀ t s, P s → Q (m env t s).1 (m env t s).2.2

section Rules

variable {env : Nat → μ} {P P' : σ → Prop} {Q R : Res ε α → σ → Prop} {Q' : Res ε β → σ → Prop}

theorem Triple.pure {a : α} (h : ∀ s, P s → Q (.ok a) s) :
    Triple env P (Pure.pure a : Prog μ σ ε α) Q := fun _ s hs => h s hs

theorem Triple.fail {e : ε} (h : ∀ s, P s → Q (.err e) s) : Triple env P (Prog.fail e) Q :=
  fun _ s hs => h s hs

theorem Triple.lift {x : Except ε α} (hok : ∀ a, x = .ok a → ∀ s, P s → Q (.ok a) s)
    (herr : ∀ e, x = .error e → ∀ s, P s → Q (.err e) s) : Triple env P (Prog.lift x) Q := by
  cases x with
  | ok a => exact fun _ s hs => hok a rfl s hs
  | error e => exact fun _ s hs => herr e rfl s hs

theorem Triple.conseq {m : Prog μ σ ε α} (h : Triple env P m Q) (hpre : ∀ s, P' s → P s)
    (hpost : ∀ r s, Q r s → R r s) : Triple env P' m R :=
  fun t s hs => hpost _ _ (h t s (hpre s hs))

theorem Triple.and {m : Prog μ σ ε α} (h : Triple env P m Q) (h' : Triple env P' m R) :
    Triple env (fun s => P s ∧ P' s) m fun r s => Q r s ∧ R r s :=
  fun t s hs => ⟨h t s hs.1, h' t s hs.2⟩

theorem Triple.pre {m : Prog μ σ ε α} (h : Triple env P m Q) (hpre : ∀ s, P' s → P s) :
    Triple env P' m Q := h.conseq hpre fun _ _ => id

/-- A precondition proved once and for all is a hypothesis. -/
theorem Triple.given {c : Prop} {m : Prog μ σ ε α} (h : c → Triple env P m Q) :
    Triple env (fun s => c ∧ P s) m Q := fun t s hs => h hs.1 t s hs.2

theorem Triple.ex {ι : Type} {P : ι → σ → Prop} {m : Prog μ σ ε α} (h : ∀ i, Triple env (P i) m Q) :
    Triple env (fun s => ∃ i, P i s) m Q := fun t s ⟨i, hs⟩ => h i t s hs

theorem Triple.bind {m : Prog μ σ ε α} {f : α → Prog μ σ ε β} (hm : Triple env P m R)
    (hf : ∀ a, Triple env (R (.ok a)) (f a) Q') (herr : ∀ e s, R (.err e) s → Q' (.err e) s)
    (hrun : ∀ s, R .running s → Q' .running s) : Triple env P (m >>= f) Q' := by
  intro t s hs
  have h := hm t s hs
  show Q' (Prog.bind m f env t s).1 (Prog.bind m f env t s).2.2
  unfold Prog.bind
  generalize m env t s = out at h
  obtain ⟨r, t', s'⟩ := out
  cases r with
  | ok a => exact hf a t' s' h
  | err e => exact herr e s' h
  | running => exact hrun s' h

/-- What follows a reading of the moment holds at every moment. -/
theorem Triple.bind_ask {g : μ → α} {f : α → Prog μ σ ε β}
    (h : ∀ t, Triple env P (f (g (env t))) Q') : Triple env P (Prog.ask g >>= f) Q' :=
  fun t s hs => h t (t + 1) s hs

theorem Triple.bind_lift {x : Except ε α} {f : α → Prog μ σ ε β}
    (hok : ∀ a, x = .ok a → Triple env P (f a) Q')
    (herr : ∀ e, x = .error e → ∀ s, P s → Q' (.err e) s) : Triple env P (Prog.lift x >>= f) Q' := by
  cases x with
  | ok a => exact fun t s hs => hok a rfl t s hs
  | error e => exact fun t s hs => herr e rfl s hs

theorem Triple.bind_modify {g : σ → σ} {f : Unit → Prog μ σ ε β} {P' : σ → Prop}
    (hg : ∀ s, P s → P' (g s)) (hf : Triple env P' (f ()) Q') :
    Triple env P (Prog.modify g >>= f) Q' := fun t s hs => hf t (g s) (hg s hs)

theorem Triple.bind_read {g : σ → α} {f : α → Prog μ σ ε β}
    (h : ∀ a, Triple env (fun s => P s ∧ g s = a) (f a) Q') : Triple env P (Prog.read g >>= f) Q' :=
  fun t s hs => h (g s) t s ⟨hs, rfl⟩

/-- What a part of the state goes through is what its own program does. -/
theorem Triple.within {μ' σ' : Type} {env : Nat → μ'} {view : μ' → μ} {get : σ' → σ} {put : σ → σ' → σ'}
    {m : Prog μ σ ε α} {R : σ' → Res ε α → σ → Prop} {P : σ' → Prop} {Q : Res ε α → σ' → Prop}
    (hm : ∀ s₀, P s₀ → Triple (fun i => view (env i)) (· = get s₀) m (R s₀))
    (hpost : ∀ s₀ r part, P s₀ → R s₀ r part → Q r (put part s₀)) :
    Triple env P (Prog.within view get put m) Q := by
  intro t s hs
  exact hpost s _ _ hs (hm s hs t (get s) rfl)

/-- What a caught failure's handler may assume. -/
theorem Triple.bind_caught {m : Prog μ σ ε' α} {f : Except ε' α → Prog μ σ ε β}
    {R : Res ε' α → σ → Prop} (hm : Triple env P m R)
    (hok : ∀ a, Triple env (R (.ok a)) (f (.ok a)) Q')
    (herr : ∀ e, Triple env (R (.err e)) (f (.error e)) Q')
    (hrun : ∀ s, R .running s → Q' .running s) : Triple env P (Prog.caught m >>= f) Q' := by
  intro t s hs
  have h := hm t s hs
  show Q' (Prog.bind (Prog.caught m) f env t s).1 (Prog.bind (Prog.caught m) f env t s).2.2
  unfold Prog.bind Prog.caught
  generalize m env t s = out at h
  obtain ⟨r, t', s'⟩ := out
  cases r with
  | ok a => exact hok a t' s' h
  | err e => exact herr e t' s' h
  | running => exact hrun s' h

/-- The loop rule: the body keeps `P` while it does not answer. -/
theorem Triple.repeatUntil {body : Prog μ σ ε (Option α)} {fuel : Nat}
    (hbody : Triple env P body fun r s => match r with
      | .ok none => P s
      | .ok (some a) => Q (.ok a) s
      | .err e => Q (.err e) s
      | .running => Q .running s)
    (hrun : ∀ s, P s → Q .running s) : Triple env P (Prog.repeatUntil body fuel) Q := by
  induction fuel with
  | zero => exact fun _ s hs => hrun s hs
  | succ fuel ih =>
    unfold Prog.repeatUntil
    refine Triple.bind hbody (fun a => ?_) (fun _ _ h => h) (fun _ h => h)
    cases a with
    | none => exact ih
    | some a => exact Triple.pure fun _ h => h

end Rules

/-! ## Invariants -/

/-- The program comes to an end, and `I` is kept whichever it is. -/
def Stays (env : Nat → μ) (I : σ → Prop) (m : Prog μ σ ε α) : Prop := Triple env I m fun r s => r ≠ .running ∧ I s

section Invariants

variable {env : Nat → μ} {I : σ → Prop}

theorem Stays.pure {a : α} : Stays env I (Pure.pure a : Prog μ σ ε α) := fun _ _ h => ⟨nofun, h⟩

theorem Stays.fail {e : ε} : Stays env I (Prog.fail e : Prog μ σ ε α) := fun _ _ h => ⟨nofun, h⟩

theorem Stays.ask {g : μ → α} : Stays env I (Prog.ask g : Prog μ σ ε α) := fun _ _ h => ⟨nofun, h⟩

theorem Stays.read {g : σ → α} : Stays env I (Prog.read g : Prog μ σ ε α) := fun _ _ h => ⟨nofun, h⟩

theorem Stays.lift {x : Except ε α} : Stays env I (Prog.lift x : Prog μ σ ε α) :=
  Triple.lift (fun _ _ _ h => ⟨nofun, h⟩) fun _ _ _ h => ⟨nofun, h⟩

theorem Stays.modify {g : σ → σ} (h : ∀ s, I s → I (g s)) : Stays env I (Prog.modify g : Prog μ σ ε Unit) :=
  fun _ s hs => ⟨nofun, h s hs⟩

theorem Stays.bind {m : Prog μ σ ε α} {f : α → Prog μ σ ε β} (hm : Stays env I m)
    (hf : ∀ a, Stays env I (f a)) : Stays env I (m >>= f) :=
  Triple.bind hm (fun a => Triple.pre (hf a) fun _ h => h.2) (fun _ _ h => ⟨nofun, h.2⟩)
    fun _ h => absurd rfl h.1

theorem Stays.caught {m : Prog μ σ ε' α} (hm : Stays env I m) :
    Stays env I (Prog.caught m : Prog μ σ ε (Except ε' α)) := by
  intro t s hs
  have h := hm t s hs
  show (Prog.caught m env t s).1 ≠ .running ∧ I (Prog.caught m env t s).2.2
  unfold Prog.caught
  generalize m env t s = out at h
  obtain ⟨r, t', s'⟩ := out
  cases r with
  | ok a => exact ⟨nofun, h.2⟩
  | err e => exact ⟨nofun, h.2⟩
  | running => exact absurd rfl h.1

theorem Stays.foldlM {γ : Type} {body : α → γ → Prog μ σ ε α} {xs : List γ} {a : α}
    (hbody : ∀ x ∈ xs, ∀ a, Stays env I (body a x)) : Stays env I (xs.foldlM body a) := by
  induction xs generalizing a with
  | nil => exact Stays.pure
  | cons x xs ih =>
    rw [List.foldlM_cons]
    refine (hbody x List.mem_cons_self a).bind fun _ => ih fun y hy => ?_
    exact hbody y (List.mem_cons_of_mem x hy)

end Invariants

/-! ## Failures -/

/-- Where the program fails, it is not with an error `E` has. -/
def Avoids (env : Nat → μ) (E : ε → Prop) (m : Prog μ σ ε α) : Prop :=
  Triple env (fun _ => True) m fun r _ => ∀ e, r = .err e → ¬E e

section Failures

variable {env : Nat → μ} {E : ε → Prop}

theorem Avoids.pure {a : α} : Avoids env E (Pure.pure a : Prog μ σ ε α) := fun _ _ _ _ h => nomatch h

theorem Avoids.ask {g : μ → α} : Avoids env E (Prog.ask g : Prog μ σ ε α) := fun _ _ _ _ h => nomatch h

theorem Avoids.read {g : σ → α} : Avoids env E (Prog.read g : Prog μ σ ε α) := fun _ _ _ _ h => nomatch h

theorem Avoids.modify {g : σ → σ} : Avoids env E (Prog.modify g : Prog μ σ ε Unit) :=
  fun _ _ _ _ h => nomatch h

theorem Avoids.lift {x : Except ε α} (h : ∀ e, x = .error e → ¬E e) : Avoids env E (Prog.lift x : Prog μ σ ε α) :=
  Triple.lift (fun _ _ _ _ _ h => nomatch h) fun e hx _ _ _ he => Res.err.inj he ▸ h e hx

theorem Avoids.bind {m : Prog μ σ ε α} {f : α → Prog μ σ ε β} (hm : Avoids env E m)
    (hf : ∀ a, Avoids env E (f a)) : Avoids env E (m >>= f) :=
  Triple.bind hm (fun a => Triple.pre (hf a) fun _ _ => trivial)
    (fun e _ h _ he => Res.err.inj he ▸ h e rfl) fun _ _ _ h => nomatch h

theorem Avoids.foldlM {γ : Type} {body : α → γ → Prog μ σ ε α} {xs : List γ} {a : α}
    (hbody : ∀ x a, Avoids env E (body a x)) : Avoids env E (xs.foldlM body a) := by
  induction xs generalizing a with
  | nil => exact Avoids.pure
  | cons x xs ih =>
    rw [List.foldlM_cons]
    exact (hbody x a).bind fun _ => ih

end Failures

/-! ## Results -/

/-- Where the program finishes, `Q` holds of what it answers. -/
def Gives (env : Nat → μ) (P : σ → Prop) (m : Prog μ σ ε α) (Q : α → σ → Prop) : Prop :=
  Triple env P m fun r s => ∀ a, r = .ok a → Q a s

section Results

variable {env : Nat → μ} {P : σ → Prop} {m : Prog μ σ ε α} {R : α → σ → Prop} {Q : β → σ → Prop}

theorem Stays.gives (h : Stays env P m) : Gives env P m fun _ => P :=
  h.conseq (fun _ => id) fun _ _ hs _ _ => hs.2

theorem Gives.conseq {P' : σ → Prop} {R' : α → σ → Prop} (h : Gives env P m R) (hpre : ∀ s, P' s → P s)
    (hpost : ∀ a s, R a s → R' a s) : Gives env P' m R' :=
  Triple.conseq h hpre fun _ s hs a ha => hpost a s (hs a ha)

theorem Gives.bind {f : α → Prog μ σ ε β} (hm : Gives env P m R) (hf : ∀ a, Gives env (R a) (f a) Q) :
    Gives env P (m >>= f) Q :=
  Triple.bind hm (fun a => Triple.pre (hf a) fun _ hs => hs a rfl) (fun _ _ _ _ h => nomatch h)
    fun _ _ _ h => nomatch h

theorem Gives.pure {a : α} (h : ∀ s, P s → R a s) : Gives env P (Pure.pure a : Prog μ σ ε α) R := by
  intro t s hs b hb
  obtain rfl := Res.ok.inj hb
  exact h s hs

theorem Gives.fail {e : ε} : Gives env P (Prog.fail e) R := fun _ _ _ _ h => nomatch h

theorem Gives.bind_lift {x : Except ε α} {f : α → Prog μ σ ε β} (h : ∀ a, x = .ok a → Gives env P (f a) Q) :
    Gives env P (Prog.lift x >>= f) Q :=
  Triple.bind_lift h fun _ _ _ _ _ hb => nomatch hb

/-- What a part that keeps `P` leaves to the rest. -/
theorem Gives.after {f : α → Prog μ σ ε β} (hm : Stays env P m) (hf : ∀ a, Gives env P (f a) Q) :
    Gives env P (m >>= f) Q := hm.gives.bind hf

/-- The rule of a loop over a list: `I` holds of what is left, the value
carried and the state. -/
theorem Gives.foldlM {γ : Type} {body : α → γ → Prog μ σ ε α} {I : List γ → α → σ → Prop}
    (hbody : ∀ x rest a, Gives env (I (x :: rest) a) (body a x) (I rest)) :
    ∀ {xs : List γ} {a : α}, Gives env (I xs a) (xs.foldlM body a) (I [])
  | [], _ => fun _ _ h _ ha => by
    obtain rfl := Res.ok.inj ha
    exact h
  | x :: rest, a => by
    rw [List.foldlM_cons]
    exact (hbody x rest a).bind fun _ => Gives.foldlM hbody

end Results

/-! ## Ends -/

/-- The program comes to an end: where it finishes, `Q` holds of what it
answers, and where it fails, `E` holds. -/
def Ends (env : Nat → μ) (P : σ → Prop) (m : Prog μ σ ε α) (Q : α → σ → Prop) (E : σ → Prop) : Prop :=
  Triple env P m fun r s => match r with
    | .ok a => Q a s
    | .err _ => E s
    | .running => False

section Ends

variable {env : Nat → μ} {P P' E : σ → Prop} {Q Q' : α → σ → Prop} {R : β → σ → Prop}

theorem Ends.pure {a : α} (h : ∀ s, P s → Q a s) : Ends env P (Pure.pure a : Prog μ σ ε α) Q E :=
  fun _ s hs => h s hs

theorem Ends.fail {e : ε} (h : ∀ s, P s → E s) : Ends env P (Prog.fail e) Q E := fun _ s hs => h s hs

theorem Ends.modify {g : σ → σ} {Q : Unit → σ → Prop} (h : ∀ s, P s → Q () (g s)) :
    Ends env P (Prog.modify g : Prog μ σ ε Unit) Q E := fun _ s hs => h s hs

theorem Ends.conseq {m : Prog μ σ ε α} (h : Ends env P m Q E) (hpre : ∀ s, P' s → P s)
    (hpost : ∀ a s, Q a s → Q' a s) : Ends env P' m Q' E :=
  Triple.conseq h hpre fun r s hs => match r with
    | .ok a => hpost a s hs
    | .err _ => hs
    | .running => hs

theorem Ends.pre {m : Prog μ σ ε α} (h : Ends env P m Q E) (hpre : ∀ s, P' s → P s) : Ends env P' m Q E :=
  h.conseq hpre fun _ _ => id

theorem Ends.bind {m : Prog μ σ ε α} {f : α → Prog μ σ ε β} (hm : Ends env P m Q E)
    (hf : ∀ a, Ends env (Q a) (f a) R E) : Ends env P (m >>= f) R E :=
  Triple.bind hm hf (fun _ _ h => h) fun _ h => h

theorem Ends.bind_ask {g : μ → α} {f : α → Prog μ σ ε β} (h : ∀ a, Ends env P (f a) R E) :
    Ends env P (Prog.ask g >>= f) R E := Triple.bind_ask fun t => h (g (env t))

theorem Ends.bind_read {g : σ → α} {f : α → Prog μ σ ε β}
    (h : ∀ a, Ends env (fun s => P s ∧ g s = a) (f a) R E) : Ends env P (Prog.read g >>= f) R E :=
  Triple.bind_read h

theorem Ends.bind_modify {g : σ → σ} {f : Unit → Prog μ σ ε β} {I : σ → Prop} (hg : ∀ s, P s → I (g s))
    (hf : Ends env I (f ()) R E) : Ends env P (Prog.modify g >>= f) R E := Triple.bind_modify hg hf

theorem Ends.bind_lift {x : Except ε α} {f : α → Prog μ σ ε β} (hok : ∀ a, x = .ok a → Ends env P (f a) R E)
    (herr : ∀ s, P s → E s) : Ends env P (Prog.lift x >>= f) R E :=
  Triple.bind_lift hok fun _ _ s hs => herr s hs

/-- What a caught failure's handler may assume. -/
theorem Ends.bind_caught {m : Prog μ σ ε' α} {f : Except ε' α → Prog μ σ ε β} {E' : σ → Prop}
    (hm : Ends env P m Q E') (hok : ∀ a, Ends env (Q a) (f (.ok a)) R E)
    (herr : ∀ e, Ends env E' (f (.error e)) R E) : Ends env P (Prog.caught m >>= f) R E :=
  Triple.bind_caught hm hok herr fun _ h => h.elim

/-- What a program run from a state of its own answers and leaves, `R` of the
state it was run in. -/
theorem Ends.bind_inside {μ' σ' : Type} {env : Nat → μ'} {view : μ' → μ} {start : σ' → σ} {m : Prog μ σ ε' α}
    {f : Except ε' α × σ → Prog μ' σ' ε β} {P E : σ' → Prop} {R : β → σ' → Prop}
    {A : σ' → Except ε' α → σ → Prop}
    (hm : ∀ s₀, P s₀ → Triple (fun i => view (env i)) (· = start s₀) m fun r part => match r with
      | .ok a => A s₀ (.ok a) part
      | .err e => A s₀ (.error e) part
      | .running => False)
    (hf : ∀ answer part, Ends env (fun s => P s ∧ A s answer part) (f (answer, part)) R E) :
    Ends env P (Prog.inside view start m >>= f) R E := by
  intro t s hs
  have h := hm s hs t (start s) rfl
  show match (Prog.bind (Prog.inside view start m) f env t s).1 with
    | .ok a => R a (Prog.bind (Prog.inside view start m) f env t s).2.2
    | .err _ => E (Prog.bind (Prog.inside view start m) f env t s).2.2
    | .running => False
  unfold Prog.bind Prog.inside
  generalize m (fun i => view (env i)) t (start s) = out at h
  obtain ⟨r, t', part⟩ := out
  cases r with
  | ok a => exact hf (.ok a) part t' s ⟨hs, h⟩
  | err e => exact hf (.error e) part t' s ⟨hs, h⟩
  | running => exact h.elim

/-- A program of which only that it comes to an end is known. -/
theorem Ends.bind_inside_stays {μ' σ' : Type} {env : Nat → μ'} {view : μ' → μ} {start : σ' → σ} {m : Prog μ σ ε' α}
    {f : Except ε' α × σ → Prog μ' σ' ε β} {P E : σ' → Prop} {R : β → σ' → Prop}
    (hm : ∀ env : Nat → μ, Stays env (fun _ => True) m) (hf : ∀ answer, Ends env P (f answer) R E) :
    Ends env P (Prog.inside view start m >>= f) R E := by
  refine Ends.bind_inside (A := fun _ _ _ => True) (fun s _ => ?_) fun answer part =>
    Ends.pre (hf (answer, part)) fun _ hs => hs.1
  refine Triple.conseq (hm _) (fun _ _ => trivial) fun r _ hr => ?_
  cases r with
  | ok a => trivial
  | err e => trivial
  | running => exact hr.1 rfl

/-- The rule of a loop over a list whose every turn ends. -/
theorem Ends.foldlM {γ : Type} {body : α → γ → Prog μ σ ε α} {I : List γ → α → σ → Prop}
    (hbody : ∀ x rest a, Ends env (I (x :: rest) a) (body a x) (I rest) E) :
    ∀ {xs : List γ} {a : α}, Ends env (I xs a) (xs.foldlM body a) (I []) E
  | [], _ => Ends.pure fun _ => id
  | x :: rest, a => by
    rw [List.foldlM_cons]
    exact (hbody x rest a).bind fun _ => Ends.foldlM hbody

/-- A loop whose body ends keeps its invariant as far as it is taken. -/
theorem Ends.repeatUntil {body : Prog μ σ ε (Option α)} {fuel : Nat} (hbody : Ends env P body (fun o s => match o with
      | none => P s
      | some a => Q a s) E) :
    Triple env P (Prog.repeatUntil body fuel) fun r s => match r with
      | .ok a => Q a s
      | .err _ => E s
      | .running => P s := by
  refine Triple.repeatUntil (Triple.conseq hbody (fun _ => id) fun r s hs => ?_) fun _ h => h
  match r, hs with
  | .ok none, hs => exact hs
  | .ok (some a), hs => exact hs
  | .err _, hs => exact hs

end Ends

/-! ## Definite answers -/

/-- The program comes to an end, and answers with `a` exactly where `Q a`: what it
is asked about decides what it answers, whatever else the world does. -/
def Yields (env : Nat → μ) (m : Prog μ σ ε α) (Q : α → Prop) : Prop :=
  Triple env (fun _ => True) m fun r _ => r ≠ .running ∧ ∀ a, r = .ok a ↔ Q a

/-- The program answers, and `Q` of what it answers. -/
abbrev Obtains (env : Nat → μ) (m : Prog μ σ ε α) (Q : α → Prop) : Prop :=
  Ends env (fun _ => True) m (fun a _ => Q a) fun _ => False

section Yields

variable {env : Nat → μ} {m : Prog μ σ ε α} {f : α → Prog μ σ ε β} {Q Q' : α → Prop} {R : α → β → Prop}

theorem Yields.congr (h : Yields env m Q) (hiff : ∀ a, Q a ↔ Q' a) : Yields env m Q' :=
  h.conseq (fun _ => id) fun _ _ hr => ⟨hr.1, fun a => (hr.2 a).trans (hiff a)⟩

theorem Yields.pure {a : α} : Yields env (Pure.pure a : Prog μ σ ε α) (a = ·) :=
  fun _ _ _ => ⟨nofun, fun _ => ⟨Res.ok.inj, congrArg Res.ok⟩⟩

theorem Yields.lift {x : Except ε α} : Yields env (Prog.lift x : Prog μ σ ε α) (x = .ok ·) :=
  Triple.lift (fun _ hx _ _ => ⟨nofun, fun _ => by simp [hx]⟩) fun _ hx _ _ => ⟨nofun, fun _ => by simp [hx]⟩

theorem Yields.fail {e : ε} : Yields env (Prog.fail e : Prog μ σ ε α) fun _ => False :=
  fun _ _ _ => ⟨nofun, fun _ => ⟨nofun, nofun⟩⟩

theorem Yields.bind (hm : Yields env m Q) (hf : ∀ a, Q a → Yields env (f a) (R a)) :
    Yields env (m >>= f) fun b => ∃ a, Q a ∧ R a b := by
  refine Triple.bind hm (fun a t s ha => ?_) (fun e _ he => ⟨nofun, fun b => ?_⟩) fun _ hr => absurd rfl hr.1
  · have hdefinite : ∀ a', Q a' ↔ a' = a := fun a' => by
      rw [← ha.2 a', Res.ok.injEq, eq_comm]
    refine ⟨(hf a ((hdefinite a).2 rfl) t s trivial).1, fun b => ?_⟩
    rw [(hf a ((hdefinite a).2 rfl) t s trivial).2 b]
    simp [hdefinite]
  · refine ⟨nofun, fun ⟨a, ha, _⟩ => ?_⟩
    cases (he.2 a).2 ha

theorem Yields.bind_lift {x : Except ε α} (hf : ∀ a, x = .ok a → Yields env (f a) (R a)) :
    Yields env (Prog.lift x >>= f) fun b => ∃ a, x = .ok a ∧ R a b := Yields.lift.bind hf

/-- What is reached need not be definite, where what follows it does. -/
theorem Yields.bind_reached {Q' : β → Prop} (hm : Obtains env m Q) (hf : ∀ a, Q a → Yields env (f a) Q') :
    Yields env (m >>= f) Q' :=
  Triple.bind hm (fun a t s ha => hf a ha t s trivial) (fun _ _ he => he.elim) fun _ hr => hr.elim

/-- A loop of definite answers is the fold of what they are. -/
theorem Yields.foldlM {γ : Type} {ε' : Type} {body : α → γ → Prog μ σ ε α} {step : α → γ → Except ε' α} {xs : List γ}
    (hbody : ∀ x ∈ xs, ∀ a, Yields env (body a x) (step a x = .ok ·)) {a : α} :
    Yields env (xs.foldlM body a) (xs.foldlM step a = .ok ·) := by
  induction xs generalizing a with
  | nil => exact Yields.pure.congr fun b => ⟨congrArg Except.ok, Except.ok.inj⟩
  | cons x xs ih =>
    rw [List.foldlM_cons]
    refine (Yields.bind (hbody x List.mem_cons_self a) fun a' _ =>
      ih fun y hy => hbody y (List.mem_cons_of_mem x hy)).congr fun b => ?_
    rw [List.foldlM_cons]
    cases step a x <;> simp [Bind.bind, Except.bind]

end Yields

end Oracle
