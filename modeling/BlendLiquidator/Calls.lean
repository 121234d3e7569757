/-
Programs that wait on the world one call at a time, and machines that run them
beside others.

A program is the tree of what it may yet ask: a call, and for each answer the
program that goes on from there. Nothing runs to its end by itself: whoever
holds the tree takes it one answer further, drops it, or lets another program
go first, which is what an `await` allows. `Keeps` is a Hoare logic over the
record of the calls made so far and their answers; its rules are per
construct, as the program is written.

The second half is what the scheduler needs: the states a machine reaches by
labels that are admitted in the states that take them.
-/
import BlendLiquidator.Oracle

namespace Calls

variable {Op : Type} {Ans : Op → Type} {ε α β : Type}

/-- A program over calls `Op`, answered in `Ans`. -/
inductive Proc (Op : Type) (Ans : Op → Type) (ε α : Type) where
  | ret (a : α)
  | fail (e : ε)
  | op (o : Op) (next : Ans o → Proc Op Ans ε α)

namespace Proc

protected def bind : Proc Op Ans ε α → (α → Proc Op Ans ε β) → Proc Op Ans ε β
  | .ret a, f => f a
  | .fail e, _ => .fail e
  | .op o next, f => .op o fun a => (next a).bind f

instance : Monad (Proc Op Ans ε) where
  pure := .ret
  bind := Proc.bind

/-- One call. -/
def call (o : Op) : Proc Op Ans ε (Ans o) := .op o .ret

/-- A value that may be a failure. -/
def lift : Except ε α → Proc Op Ans ε α
  | .ok a => .ret a
  | .error e => .fail e

/-- A program run on its own, its calls made as `handler` makes them. -/
def runWith {μ σ : Type} (handler : (o : Op) → Oracle.Prog μ σ ε (Ans o)) :
    Proc Op Ans ε α → Oracle.Prog μ σ ε α
  | .ret a => pure a
  | .fail e => Oracle.Prog.fail e
  | .op o next => handler o >>= fun a => (next a).runWith handler

/-- A program as part of one with more calls, its failures among the other's. -/
def embed {Op' : Type} {Ans' : Op' → Type} {ε' : Type} (inj : Op → Op') (back : ∀ o, Ans' (inj o) → Ans o) (wrap : ε → ε') :
    Proc Op Ans ε α → Proc Op' Ans' ε' α
  | .ret a => .ret a
  | .fail e => .fail (wrap e)
  | .op o next => .op (inj o) fun a => (next (back o a)).embed inj back wrap

end Proc

/-- A call and its answer. -/
abbrev Entry (Ans : Op → Type) := (o : Op) × Ans o

/-- From the record `l` on, as long as every answer is one `A` admits after the
record it comes to: before each call `P` holds of the record and the call, and
at the end `Q` holds of the record and the result. -/
def Keeps (A : List (Entry Ans) → (o : Op) → Ans o → Prop) (P : List (Entry Ans) → Op → Prop)
    (Q : List (Entry Ans) → Except ε α → Prop) : List (Entry Ans) → Proc Op Ans ε α → Prop
  | l, .ret a => Q l (.ok a)
  | l, .fail e => Q l (.error e)
  | l, .op o next => P l o ∧ ∀ a, A l o a → Keeps A P Q (l ++ [⟨o, a⟩]) (next a)

section Rules

variable {A : List (Entry Ans) → (o : Op) → Ans o → Prop} {P P' : List (Entry Ans) → Op → Prop}
  {Q Q' : List (Entry Ans) → Except ε α → Prop} {R : List (Entry Ans) → Except ε β → Prop}
  {l : List (Entry Ans)}

theorem Keeps.mono {m : Proc Op Ans ε α} (h : Keeps A P Q l m) (hp : ∀ l o, P l o → P' l o)
    (hq : ∀ l r, Q l r → Q' l r) : Keeps A P' Q' l m := by
  induction m generalizing l with
  | ret a => exact hq _ _ h
  | fail e => exact hq _ _ h
  | op o next ih => exact ⟨hp _ _ h.1, fun a ha => ih a (h.2 a ha)⟩

theorem Keeps.and {m : Proc Op Ans ε α} (h : Keeps A P Q l m) (h' : Keeps A P' Q' l m) :
    Keeps A (fun l o => P l o ∧ P' l o) (fun l r => Q l r ∧ Q' l r) l m := by
  induction m generalizing l with
  | ret a => exact ⟨h, h'⟩
  | fail e => exact ⟨h, h'⟩
  | op o next ih => exact ⟨⟨h.1, h'.1⟩, fun a ha => ih a (h.2 a ha) (h'.2 a ha)⟩

/-- A program only adds to the record. -/
theorem Keeps.extends {m : Proc Op Ans ε α} (h : Keeps A P Q l m) :
    Keeps A P (fun l' r => l <+: l' ∧ Q l' r) l m := by
  induction m generalizing l with
  | ret a => exact ⟨List.prefix_rfl, h⟩
  | fail e => exact ⟨List.prefix_rfl, h⟩
  | op o next ih =>
    refine ⟨h.1, fun a ha => (ih a (h.2 a ha)).mono (fun _ _ => id) ?_⟩
    rintro l' r ⟨hl, hq⟩
    exact ⟨(List.prefix_append _ _).trans hl, hq⟩

/-- What a program adds to the record are calls it may make. -/
theorem Keeps.only {N : Op → Prop} {m : Proc Op Ans ε α} (h : Keeps A (fun _ o => N o) Q l m) :
    Keeps A (fun _ o => N o) (fun l' r => (∀ e ∈ l', e ∈ l ∨ N e.1) ∧ Q l' r) l m := by
  induction m generalizing l with
  | ret a => exact ⟨fun _ he => .inl he, h⟩
  | fail e => exact ⟨fun _ he => .inl he, h⟩
  | op o next ih =>
    refine ⟨h.1, fun a ha => (ih a (h.2 a ha)).mono (fun _ _ => id) ?_⟩
    intro l' r hr
    refine ⟨fun e he => ?_, hr.2⟩
    rcases hr.1 e he with he | he
    · rcases List.mem_append.1 he with he | he
      · exact .inl he
      · rw [List.mem_singleton] at he
        subst he
        exact .inr h.1
    · exact .inr he

/-- What is on the record at each call a program makes, if all before it is
of one kind. -/
theorem Keeps.throughout {N : Op → Prop} {m : Proc Op Ans ε α} (h : Keeps A (fun _ o => N o) Q l m)
    (hl : ∀ e ∈ l, N e.1) :
    Keeps A (fun l o => (∀ e ∈ l, N e.1) ∧ N o) (fun l r => (∀ e ∈ l, N e.1) ∧ Q l r) l m := by
  induction m generalizing l with
  | ret a => exact ⟨hl, h⟩
  | fail e => exact ⟨hl, h⟩
  | op o next ih =>
    refine ⟨⟨hl, h.1⟩, fun a ha => ih a (h.2 a ha) fun e he => ?_⟩
    rcases List.mem_append.1 he with he | he
    · exact hl e he
    · exact List.mem_singleton.1 he ▸ h.1

theorem Keeps.bind {m : Proc Op Ans ε α} {f : α → Proc Op Ans ε β} (hm : Keeps A P Q l m)
    (hf : ∀ l a, Q l (.ok a) → Keeps A P R l (f a)) (herr : ∀ l e, Q l (.error e) → R l (.error e)) :
    Keeps A P R l (m >>= f) := by
  show Keeps A P R l (m.bind f)
  induction m generalizing l with
  | ret a => exact hf _ _ hm
  | fail e => exact herr _ _ hm
  | op o next ih => exact ⟨hm.1, fun a ha => ih a (hm.2 a ha)⟩

/-- What follows a call holds at each answer. -/
theorem Keeps.bind_call {o : Op} {f : Ans o → Proc Op Ans ε β} (hp : P l o)
    (h : ∀ a, A l o a → Keeps A P R (l ++ [⟨o, a⟩]) (f a)) : Keeps A P R l (Proc.call o >>= f) :=
  ⟨hp, h⟩

theorem Keeps.bind_lift {x : Except ε α} {f : α → Proc Op Ans ε β}
    (hok : ∀ a, x = .ok a → Keeps A P R l (f a)) (herr : ∀ e, x = .error e → R l (.error e)) :
    Keeps A P R l (Proc.lift x >>= f) := by
  cases x with
  | ok a => exact hok a rfl
  | error e => exact herr e rfl

/-- What a part's calls are allowed and keep, the part keeps. -/
theorem Keeps.embed {Op' : Type} {Ans' : Op' → Type} {ε' : Type} {inj : Op' → Op} {back : ∀ o, Ans (inj o) → Ans' o}
    {wrap : ε' → ε} {I : List (Entry Ans) → Prop} (hallowed : ∀ l o, I l → P l (inj o))
    (hkept : ∀ l o a, I l → I (l ++ [⟨inj o, a⟩])) {m : Proc Op' Ans' ε' α} (h : I l) :
    Keeps A P (fun l _ => I l) l (m.embed inj back wrap) := by
  induction m generalizing l with
  | ret a => exact h
  | fail e => exact h
  | op o next ih => exact ⟨hallowed l o h, fun a _ => ih _ (hkept l o a h)⟩

/-- The rule of a loop over a list: `I` says what the loop has done to the
record by the time `rest` is left. -/
theorem Keeps.forM {γ : Type} {body : γ → Proc Op Ans ε PUnit} {I : List γ → List (Entry Ans) → Prop}
    {E : List (Entry Ans) → ε → Prop}
    (hbody : ∀ x rest l, I (x :: rest) l → Keeps A P (fun l r => match r with
      | .ok _ => I rest l
      | .error e => E l e) l (body x)) :
    ∀ {xs : List γ} {l : List (Entry Ans)}, I xs l → Keeps A P (fun l r => match r with
      | .ok _ => I [] l
      | .error e => E l e) l (xs.forM body)
  | [], _, h => h
  | x :: rest, _, h => by
    show Keeps A P _ _ (body x >>= fun _ => rest.forM body)
    exact (hbody x rest _ h).bind (fun _ _ h => Keeps.forM hbody h) fun _ _ h => h

end Rules

/-! ## Machines -/

section Machines

variable {σ ℓ : Type} {step : σ → ℓ → σ} {ok : σ → ℓ → Prop} {s t : σ}

/-- The states a machine reaches from `s` by admitted labels. -/
inductive Reaches (step : σ → ℓ → σ) (ok : σ → ℓ → Prop) (s : σ) : σ → Prop
  | refl : Reaches step ok s s
  | tail {t : σ} {l : ℓ} : Reaches step ok s t → ok t l → Reaches step ok s (step t l)

/-- What holds at first and is kept by every admitted step holds throughout. -/
theorem Reaches.always {I : σ → Prop} (h : Reaches step ok s t) (h0 : I s)
    (hstep : ∀ {t l}, I t → ok t l → I (step t l)) : I t := by
  induction h with
  | refl => exact h0
  | tail _ hok ih => exact hstep ih hok

theorem Reaches.append {u : σ} (h : Reaches step ok s t) (h' : Reaches step ok t u) : Reaches step ok s u := by
  induction h' with
  | refl => exact h
  | tail _ hok ih => exact ih.tail hok

/-- Each of `labels` is admitted where it is taken. -/
def Admitted (step : σ → ℓ → σ) (ok : σ → ℓ → Prop) : σ → List ℓ → Prop
  | _, [] => True
  | s, l :: labels => ok s l ∧ Admitted step ok (step s l) labels

theorem admitted_of_forall {labels : List ℓ} (hok : ∀ s l, ok s l) : Admitted step ok s labels := by
  induction labels generalizing s with
  | nil => trivial
  | cons l labels ih => exact ⟨hok s l, ih⟩

theorem admitted_true {labels : List ℓ} : Admitted step (fun _ _ => True) s labels :=
  admitted_of_forall fun _ _ => trivial

/-- A run is admitted throughout if its end says so of each of its steps. -/
theorem admitted_of_end {C : σ → Prop} {labels : List ℓ} (hback : ∀ {s l}, C (step s l) → C s)
    (hok : ∀ {s l}, C (step s l) → ok s l) (h : C (labels.foldl step s)) : Admitted step ok s labels := by
  have hfirst : ∀ {labels : List ℓ} {s}, C (labels.foldl step s) → C s := by
    intro labels
    induction labels with
    | nil => exact id
    | cons l labels ih => exact fun h => hback (ih h)
  induction labels generalizing s with
  | nil => trivial
  | cons l labels ih => exact ⟨hok (hfirst h), ih h⟩

/-- A run given by its labels, after what was reached already. -/
theorem Reaches.run {labels : List ℓ} (h : Reaches step ok s t) (hl : Admitted step ok t labels) :
    Reaches step ok s (labels.foldl step t) := by
  induction labels generalizing t with
  | nil => exact h
  | cons l labels ih => exact ih (h.tail hl.1) hl.2

end Machines

end Calls
