/-
A program of calls beside others that share its state.

Each call of the program is one step on the shared state, and between two of
its calls the others may take any number of steps of their own. `Beside` says
of a program what is asserted before each of its calls and at its end, at
whatever state the others have left by then; an assertion the others cannot
break is `Stable`, and stable assertions are what the rules are about.

`Machine` is the whole: the shared state, the program under way, and labels for
a step of the others, a program begun and a call answered. What `Beside` says of
every program that can be begun holds in every state the machine reaches.
-/
import BlendLiquidator.Calls
import Mathlib.Logic.Relation

namespace Calls

variable {Op : Type} {Ans : Op → Type} {ε α β σ ω : Type}

/-- How calls are made on a shared state, each with what the world adds to its
answer, and what the others may do to it in one step. -/
structure Sharing (Op : Type) (Ans : Op → Type) (σ ω : Type) where
  exec : σ → ω → (o : Op) → Ans o × σ
  others : σ → σ → Prop

variable {sh : Sharing Op Ans σ ω} {P : Op → σ → Prop} {Q : Except ε α → σ → Prop} {R : Except ε β → σ → Prop}
  {I : σ → Prop} {s s' : σ}

/-- The others cannot break it. -/
def Stable (sh : Sharing Op Ans σ ω) (I : σ → Prop) : Prop := ∀ {s s'}, I s → sh.others s s' → I s'

/-- From `s` on, `P` holds of each call when it is made, and `Q` of the end. -/
def Beside (sh : Sharing Op Ans σ ω) (P : Op → σ → Prop) (Q : Except ε α → σ → Prop) : Proc Op Ans ε α → σ → Prop
  | .ret a, s => Q (.ok a) s
  | .fail e, s => Q (.error e) s
  | .op o next, s => ∀ s', Relation.ReflTransGen sh.others s s' →
      P o s' ∧ ∀ w, Beside sh P Q (next (sh.exec s' w o).1) (sh.exec s' w o).2

theorem Stable.reached (hI : Stable sh I) (hs : I s) (h : Relation.ReflTransGen sh.others s s') : I s' := by
  induction h with
  | refl => exact hs
  | tail _ hstep ih => exact hI ih hstep

/-- What the others do between two calls is allowed for. -/
theorem Beside.stable {m : Proc Op Ans ε α} (hQ : ∀ r, Stable sh (Q r)) (h : Beside sh P Q m s)
    (hstep : sh.others s s') : Beside sh P Q m s' := by
  cases m with
  | ret a => exact hQ _ h hstep
  | fail e => exact hQ _ h hstep
  | op o next => exact fun t ht => h t (ht.head hstep)

theorem Beside.conseq {m : Proc Op Ans ε α} {P' : Op → σ → Prop} {Q' : Except ε α → σ → Prop}
    (h : Beside sh P Q m s) (hp : ∀ o s, P o s → P' o s) (hq : ∀ r s, Q r s → Q' r s) : Beside sh P' Q' m s := by
  induction m generalizing s with
  | ret a => exact hq _ _ h
  | fail e => exact hq _ _ h
  | op o next ih => exact fun t ht => ⟨hp _ _ (h t ht).1, fun w => ih _ ((h t ht).2 w)⟩

theorem Beside.bind {m : Proc Op Ans ε α} {f : α → Proc Op Ans ε β} (hm : Beside sh P Q m s)
    (hf : ∀ a s, Q (.ok a) s → Beside sh P R (f a) s) (herr : ∀ e s, Q (.error e) s → R (.error e) s) :
    Beside sh P R (m >>= f) s := by
  show Beside sh P R (m.bind f) s
  induction m generalizing s with
  | ret a => exact hf a s hm
  | fail e => exact herr e s hm
  | op o next ih => exact fun t ht => ⟨(hm t ht).1, fun w => ih _ ((hm t ht).2 w)⟩

/-- A call is made at a state that still has what was stable before it. -/
theorem Beside.bind_call {o : Op} {f : Ans o → Proc Op Ans ε β} (hI : Stable sh I) (hs : I s)
    (h : ∀ t, I t → P o t ∧ ∀ w, Beside sh P R (f (sh.exec t w o).1) (sh.exec t w o).2) :
    Beside sh P R (Proc.call o >>= f) s :=
  fun t ht => h t (hI.reached hs ht)

theorem Beside.lift {x : Except ε α} (h : Q x s) : Beside sh P Q (Proc.lift x) s := by
  cases x with
  | ok a => exact h
  | error e => exact h

/-- The rule of a loop over a list: `J` says what holds when `rest` is left. -/
theorem Beside.forM {γ : Type} {body : γ → Proc Op Ans ε PUnit} {J : List γ → σ → Prop}
    (hbody : ∀ x rest s, J (x :: rest) s → Beside sh P (fun r s => ∀ u, r = .ok u → J rest s) (body x) s) :
    ∀ {xs : List γ} {s : σ}, J xs s → Beside sh P (fun r s => ∀ u, r = .ok u → J [] s) (xs.forM body) s
  | [], _, h => fun _ _ => h
  | x :: rest, _, h => by
    show Beside sh P _ (body x >>= fun _ => rest.forM body) _
    exact (hbody x rest _ h).bind (fun a _ h => Beside.forM hbody (h a rfl)) fun _ _ _ => nofun

/-! ## What a program may call -/

/-- Every call the program may make is one `N` has. -/
def Only (N : Op → Prop) : Proc Op Ans ε α → Prop
  | .ret _ | .fail _ => True
  | .op o next => N o ∧ ∀ a, Only N (next a)

section Only

variable {N : Op → Prop}

theorem Only.bind {m : Proc Op Ans ε α} {f : α → Proc Op Ans ε β} (hm : Only N m) (hf : ∀ a, Only N (f a)) :
    Only N (m >>= f) := by
  show Only N (m.bind f)
  induction m with
  | ret a => exact hf a
  | fail e => exact trivial
  | op o next ih => exact ⟨hm.1, fun a => ih a (hm.2 a)⟩

theorem Only.bind_call {o : Op} {f : Ans o → Proc Op Ans ε β} (ho : N o) (hf : ∀ a, Only N (f a)) :
    Only N (Proc.call o >>= f) := ⟨ho, hf⟩

theorem Only.lift {x : Except ε α} : Only N (Proc.lift x : Proc Op Ans ε α) := by
  cases x <;> trivial

theorem Only.forM {γ : Type} {body : γ → Proc Op Ans ε PUnit} (hbody : ∀ x, Only N (body x)) :
    ∀ {xs : List γ}, Only N (xs.forM body)
  | [] => trivial
  | x :: _ => (hbody x).bind fun _ => Only.forM hbody

/-- Where nothing is asserted of its calls, nothing is to be shown. -/
theorem Only.beside {m : Proc Op Ans ε α} (h : Only N m) (hN : ∀ o s, N o → P o s) :
    Beside sh P (fun _ _ => True) m s := by
  induction m generalizing s with
  | ret a => trivial
  | fail e => trivial
  | op o next ih => exact fun t _ => ⟨hN o t h.1, fun w => ih _ (h.2 _)⟩

end Only

/-! ## Nobody beside it -/

/-- The program on its own: its result, the state it leaves and the calls it
made. -/
def Proc.alone (exec : σ → (o : Op) → Ans o × σ) : Proc Op Ans ε α → σ → Except ε α × σ × List Op
  | .ret a, s => (.ok a, s, [])
  | .fail e, s => (.error e, s, [])
  | .op o next, s =>
    let out := (next (exec s o).1).alone exec (exec s o).2
    (out.1, out.2.1, o :: out.2.2)

theorem Proc.alone_bind {exec : σ → (o : Op) → Ans o × σ} {m : Proc Op Ans ε α} {f : α → Proc Op Ans ε β} {a : α}
    {ops : List Op} (hm : m.alone exec s = (.ok a, s', ops)) :
    (m >>= f).alone exec s =
      (((f a).alone exec s').1, ((f a).alone exec s').2.1, ops ++ ((f a).alone exec s').2.2) := by
  show (m.bind f).alone exec s = _
  induction m generalizing s ops with
  | ret b =>
    cases hm
    rfl
  | fail e => cases hm
  | op o next ih =>
    simp only [Proc.alone, Prod.mk.injEq] at hm
    obtain ⟨hr, hs, rfl⟩ := hm
    have hnext := ih _ (Prod.ext hr (Prod.ext hs rfl))
    simp only [Proc.bind, Proc.alone, hnext, List.cons_append]

/-- The program on its own beside a world that answers as it likes: the calls it
makes with their answers, its result and the state it leaves. -/
inductive Runs (exec : σ → ω → (o : Op) → Ans o × σ) :
    Proc Op Ans ε α → σ → List (Entry Ans) → Except ε α → σ → Prop
  | ret {a : α} {s : σ} : Runs exec (.ret a) s [] (.ok a) s
  | fail {e : ε} {s : σ} : Runs exec (.fail e) s [] (.error e) s
  | op {o : Op} {next : Ans o → Proc Op Ans ε α} {s s' : σ} {trace : List (Entry Ans)} {r : Except ε α} (w : ω) :
    Runs exec (next (exec s w o).1) (exec s w o).2 trace r s' →
    Runs exec (.op o next) s (⟨o, (exec s w o).1⟩ :: trace) r s'

section Runs

variable {exec : σ → ω → (o : Op) → Ans o × σ} {trace : List (Entry Ans)}

theorem Runs.of_call_bind {o : Op} {f : Ans o → Proc Op Ans ε β} {r : Except ε β}
    (h : Runs exec (Proc.call o >>= f) s trace r s') :
    ∃ w rest, trace = ⟨o, (exec s w o).1⟩ :: rest ∧ Runs exec (f (exec s w o).1) (exec s w o).2 rest r s' := by
  cases (show Runs exec (.op o f) s trace r s' from h) with
  | op w hrest => exact ⟨w, _, rfl, hrest⟩

theorem Runs.of_pure {a : α} {r : Except ε α} (h : Runs exec (Pure.pure a) s trace r s') :
    trace = [] ∧ r = .ok a ∧ s' = s := by
  cases (show Runs exec (.ret a) s trace r s' from h) with
  | ret => exact ⟨rfl, rfl, rfl⟩

/-- A run in sequence is two runs, unless the first failed. -/
theorem Runs.of_bind {m : Proc Op Ans ε α} {f : α → Proc Op Ans ε β} {r : Except ε β}
    (h : Runs exec (m >>= f) s trace r s') :
    (∃ a mid first rest, trace = first ++ rest ∧ Runs exec m s first (.ok a) mid ∧ Runs exec (f a) mid rest r s') ∨
      ∃ e, r = .error e ∧ Runs exec m s trace (.error e) s' := by
  induction m generalizing s trace with
  | ret a => exact .inl ⟨a, s, [], trace, rfl, .ret, h⟩
  | fail e =>
    cases (show Runs exec (.fail e) s trace r s' from h) with
    | fail => exact .inr ⟨e, rfl, .fail⟩
  | op o next ih =>
    obtain ⟨w, rest, htrace, hrest⟩ := Runs.of_call_bind (f := fun a => next a >>= f) h
    subst htrace
    rcases ih _ hrest with ⟨a, mid, first, last, hsplit, hm, hf⟩ | ⟨e, hr, hm⟩
    · exact .inl ⟨a, mid, _ :: first, last, by rw [hsplit]; rfl, .op w hm, hf⟩
    · exact .inr ⟨e, hr, .op w hm⟩

/-- There is a run with every call answered by one world. -/
theorem Runs.exists_of_world (exec : σ → ω → (o : Op) → Ans o × σ) (w : ω) (m : Proc Op Ans ε α) (s : σ) :
    ∃ trace r s', Runs exec m s trace r s' ∧ ∀ e ∈ trace, ∃ t, e = ⟨e.1, (exec t w e.1).1⟩ := by
  induction m generalizing s with
  | ret a => exact ⟨[], .ok a, s, .ret, nofun⟩
  | fail e => exact ⟨[], .error e, s, .fail, nofun⟩
  | op o next ih =>
    obtain ⟨trace, r, s', hrun, hanswers⟩ := ih (exec s w o).1 (exec s w o).2
    refine ⟨⟨o, (exec s w o).1⟩ :: trace, r, s', .op w hrun, fun e he => ?_⟩
    rcases List.mem_cons.1 he with rfl | he
    · exact ⟨s, rfl⟩
    · exact hanswers e he

end Runs

/-! ## The machine -/

variable {ℓ γ : Type}

/-- A step of the others, a program begun, a call answered. -/
inductive Move (ℓ γ ω : Type) where
  | other (label : ℓ)
  | begins (task : γ)
  | answers (world : ω)

/-- The shared state, and the program under way. -/
structure Joint (Op : Type) (Ans : Op → Type) (ε σ : Type) where
  state : σ
  task : Option (Proc Op Ans ε Unit) := none

/-- What the others do, how calls are made, and which programs are begun. -/
structure Machine (Op : Type) (Ans : Op → Type) (ε σ ω ℓ γ : Type) where
  other : σ → ℓ → σ
  exec : σ → ω → (o : Op) → Ans o × σ
  program : γ → Proc Op Ans ε Unit

namespace Machine

variable (m : Machine Op Ans ε σ ω ℓ γ)

/-- A program that came to its end is no longer under way. -/
def running (program : Proc Op Ans ε Unit) : Option (Proc Op Ans ε Unit) :=
  match program with
  | .op _ _ => some program
  | .ret _ | .fail _ => none

def step (s : Joint Op Ans ε σ) : Move ℓ γ ω → Joint Op Ans ε σ
  | .other label => { s with state := m.other s.state label }
  | .begins task => if s.task.isNone then { s with task := running (m.program task) } else s
  | .answers w => match s.task with
    | some (.op o next) => ⟨(m.exec s.state w o).2, running (next (m.exec s.state w o).1)⟩
    | _ => s

/-- The others held to `ok`. -/
def sharing (ok : σ → ℓ → Prop) : Sharing Op Ans σ ω where
  exec := m.exec
  others s s' := ∃ label, ok s label ∧ s' = m.other s label

/-- The condition on a run that holds the others to `ok`. -/
def Holding (ok : σ → ℓ → Prop) (s : Joint Op Ans ε σ) : Move ℓ γ ω → Prop
  | .other label => ok s.state label
  | .begins _ | .answers _ => True

theorem holding_true (j : Joint Op Ans ε σ) (move : Move ℓ γ ω) :
    Holding (fun (_ : σ) (_ : ℓ) => True) j move := by
  cases move <;> trivial

variable {m} {ok : σ → ℓ → Prop} {j j' : Joint Op Ans ε σ}

/-- Where a machine stands: idle with `I`, or with a program it can go on with. -/
def Standing (m : Machine Op Ans ε σ ω ℓ γ) (ok : σ → ℓ → Prop) (P : Op → σ → Prop) (I : σ → Prop)
    (j : Joint Op Ans ε σ) : Prop :=
  match j.task with
  | none => I j.state
  | some program => Beside (m.sharing ok) P (fun _ => I) program j.state

theorem standing_running {program : Proc Op Ans ε Unit} (h : Beside (m.sharing ok) P (fun _ => I) program s) :
    m.Standing ok P I ⟨s, running program⟩ := by
  cases program with
  | ret a => exact h
  | fail e => exact h
  | op o next => exact h

/-- Every program asserts what it does, whatever came before it. -/
theorem reaches_standing (hI : Stable (m.sharing ok) I)
    (hprogram : ∀ task s, I s → Beside (m.sharing ok) P (fun _ => I) (m.program task) s)
    (hj : m.Standing ok P I j) (h : Reaches m.step (Holding ok) j j') : m.Standing ok P I j' := by
  refine h.always hj fun {t label} ht hok => ?_
  obtain ⟨state, task⟩ := t
  cases label with
  | other label =>
    cases task with
    | none => exact hI ht ⟨label, hok, rfl⟩
    | some program => exact Beside.stable (fun _ => hI) ht ⟨label, hok, rfl⟩
  | begins task' =>
    cases task with
    | none => exact standing_running (hprogram task' state ht)
    | some program => exact ht
  | answers w =>
    cases task with
    | none => exact ht
    | some program =>
      cases program with
      | ret a => exact ht
      | fail e => exact ht
      | op o next => exact standing_running ((ht state .refl).2 w)

/-- So what is asserted of a call holds when it is made. -/
theorem Standing.asserted {o : Op} {next : Ans o → Proc Op Ans ε Unit} (h : m.Standing ok P I ⟨s, some (.op o next)⟩) :
    P o s := (h s .refl).1

end Machine

end Calls
