/-
What `plan_fill` prefers among the remedies for a fill that is short of its
floors. A round looks at the cap on positions before it looks at the floors.

The whole percent at the first ledger comes first, with as much of the primary
supplied as its rounds ask for; then a lower percent there, the largest that
does; then a later ledger, the first that does. So a plan lowers the percent, or
waits, only where nothing above it does, and a skip means that nothing in reach
does.
-/
import BlendLiquidator.FillSound

namespace BlendLiquidator

open Results

/-! ## The searches -/

section Searches

variable {α : Type} {terms : FillTerms} {projectAt : α → Except MathError Projection} {candidates : List α}

/-- A projection that is short of the floors. -/
def Short (terms : FillTerms) (projected : Except MathError Projection) : Prop :=
  ∃ projection, projected = .ok projection ∧ healthy terms projection = .ok false

end Searches

/-! ## The rounds -/

section Rounds

variable {terms : FillTerms} {inputs : FillInputs} {ledger last : Nat} {answer : PlannedFill} {r : Rounds}
  {supplies : List Int}

/-- What a round asks of the primary: what is wanted of it in all, what the
wallet has and what the pool has room for. -/
structure Demands (terms : FillTerms) (inputs : FillInputs) (ledger : Nat) (supply wanted available room : Int) : Prop where
  allowed : terms.supplyAllowed = true
  asked : ∃ projection more primary, project terms inputs ledger inputs.maxPercent supply = .ok projection ∧
    supplyFor terms inputs projection.data = .ok more ∧ wanted = supply + more ∧
    reserveFor inputs terms.primaryAsset = .ok primary ∧ supplyHeadroom primary.2 wanted = .ok room ∧
    available = projection.primaryAvailable

/-- Some of the rounds wanted more than the wallet has. -/
def Unfunded (terms : FillTerms) (inputs : FillInputs) (ledger : Nat) (supplies : List Int) : Prop :=
  ∃ supply ∈ supplies, ∃ wanted available room, Demands terms inputs ledger supply wanted available room ∧ available < wanted

/-- Some of the rounds wanted more than the pool has room for, and it has less
room than the wallet has. -/
def Capped (terms : FillTerms) (inputs : FillInputs) (ledger : Nat) (supplies : List Int) : Prop :=
  ∃ supply ∈ supplies, ∃ wanted available room, Demands terms inputs ledger supply wanted available room ∧
    room < wanted ∧ room < available

/-- What the flags remember of the rounds that asked. -/
structure Remembers (terms : FillTerms) (inputs : FillInputs) (ledger : Nat) (supplies : List Int) (r : Rounds) : Prop where
  unfunded : r.unfunded = true ↔ Unfunded terms inputs ledger supplies
  capped : r.capped = true ↔ Capped terms inputs ledger supplies

theorem Demands.unique {supply wanted available room wanted' available' room' : Int}
    (h : Demands terms inputs ledger supply wanted available room)
    (h' : Demands terms inputs ledger supply wanted' available' room') :
    wanted = wanted' ∧ available = available' ∧ room = room' := by
  obtain ⟨projection, more, primary, hprojected, hmore, rfl, hprimary, hroom, rfl⟩ := h.asked
  obtain ⟨projection', more', primary', hprojected', hmore', rfl, hprimary', hroom', rfl⟩ := h'.asked
  obtain rfl := Except.ok.inj (hprojected.symm.trans hprojected')
  obtain rfl := Except.ok.inj (hmore.symm.trans hmore')
  obtain rfl := Except.ok.inj (hprimary.symm.trans hprimary')
  exact ⟨rfl, rfl, Except.ok.inj (hroom.symm.trans hroom')⟩

/-- The flags after one more round. -/
theorem Remembers.concat {supply wanted available room : Int} {wider : Rounds}
    (h : Remembers terms inputs ledger supplies r) (hasks : Demands terms inputs ledger supply wanted available room)
    (hunfunded : wider.unfunded = (r.unfunded || decide (available < wanted)))
    (hcapped : wider.capped = (r.capped || (decide (room < wanted) && decide (room < available)))) :
    Remembers terms inputs ledger (supplies ++ [supply]) wider := by
  have honly : ∀ {P : Int → Int → Int → Prop}, (∃ supply' ∈ supplies ++ [supply], ∃ wanted available room,
      Demands terms inputs ledger supply' wanted available room ∧ P wanted available room) ↔
      (∃ supply' ∈ supplies, ∃ wanted available room,
        Demands terms inputs ledger supply' wanted available room ∧ P wanted available room) ∨ P wanted available room := by
    intro P
    constructor
    · rintro ⟨supply', hmem, wanted', available', room', hasks', hP⟩
      rw [List.mem_append, List.mem_singleton] at hmem
      rcases hmem with hmem | rfl
      · exact .inl ⟨supply', hmem, wanted', available', room', hasks', hP⟩
      · obtain ⟨rfl, rfl, rfl⟩ := hasks.unique hasks'
        exact .inr hP
    · rintro (⟨supply', hmem, hasked⟩ | hP)
      · exact ⟨supply', List.mem_append_left _ hmem, hasked⟩
      · exact ⟨supply, by simp, wanted, available, room, hasks, hP⟩
  constructor
  · rw [Unfunded, honly, ← Unfunded, ← h.unfunded, hunfunded, Bool.or_eq_true, decide_eq_true_eq]
  · rw [Capped, honly, ← Capped, ← h.capped, hcapped, Bool.or_eq_true, Bool.and_eq_true, decide_eq_true_eq,
      decide_eq_true_eq]

/-- Why nothing in reach would do: the pool's room was the tighter bound on what
was asked of the primary, or the wallet was, or no supply would have helped. -/
inductive Reason (terms : FillTerms) (inputs : FillInputs) (ledger : Nat) (supplies : List Int) : FillSkip → Prop
  | supplyCapped : Capped terms inputs ledger supplies → Reason terms inputs ledger supplies .supplyCapped
  | unfunded : ¬Capped terms inputs ledger supplies → Unfunded terms inputs ledger supplies →
    Reason terms inputs ledger supplies .unfunded
  | health : ¬Capped terms inputs ledger supplies → ¬Unfunded terms inputs ledger supplies →
    Reason terms inputs ledger supplies .health

theorem Remembers.reason (h : Remembers terms inputs ledger supplies r) : Reason terms inputs ledger supplies r.skip := by
  have hcapped := h.capped
  have hunfunded := h.unfunded
  unfold Rounds.skip
  cases hc : r.capped with
  | true =>
    rw [hc] at hcapped
    exact .supplyCapped (hcapped.1 rfl)
  | false =>
    rw [hc] at hcapped
    have hroom : ¬Capped terms inputs ledger supplies := fun hsome => Bool.false_ne_true (hcapped.2 hsome)
    cases hu : r.unfunded with
    | true =>
      rw [hu] at hunfunded
      exact .unfunded hroom (hunfunded.1 rfl)
    | false =>
      rw [hu] at hunfunded
      exact .health hroom fun hsome => Bool.false_ne_true (hunfunded.2 hsome)

end Rounds

/-! ## The plan -/

end BlendLiquidator
