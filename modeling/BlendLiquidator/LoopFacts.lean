/-
What the tracker loop owes, and that it pays before it answers.

An applied event leaves each account it names owed until a tick of its pool
applies; a failed event leaves its pool's range lost until a tick of the pool
is handled. The loop carries both: whatever is owed waits in `pending`,
whatever is lost is marked in `unapplied`. `handle_message` takes a pool's
share out of the two before it applies a tick and puts it back where the tick
fails, so that a tick that applied has served all its pool was owed, and one
that was answered has lost nothing (`Accounted`).
-/
import BlendLiquidator.RefreshFacts

namespace BlendLiquidator

open Oracle

/-! ## What is owed and what is lost -/

/-- A tick of the pool that applied. -/
def Did.Applies (pool : String) : Did → Prop
  | .tick p _ _ applied _ => p = pool ∧ applied = true
  | _ => False

/-- A tick of the pool, applied or not. -/
def Did.IsTick (pool : String) : Did → Prop
  | .tick p _ _ _ _ => p = pool
  | _ => False

/-- An applied event named the account, and no tick of the pool applied since. -/
def Owed (acts : List Did) (pool account : String) : Prop :=
  ∃ before pass ledger event after, acts = before ++ .event pool pass ledger event true :: after ∧
    account ∈ event.affectedAccounts ∧ ∀ act ∈ after, ¬act.Applies pool

/-- An event of the pool failed, and no tick of it was handled since. -/
def RangeLost (acts : List Did) (pool : String) : Prop :=
  ∃ before pass ledger event after, acts = before ++ .event pool pass ledger event false :: after ∧
    ∀ act ∈ after, ¬act.IsTick pool

section Acts

variable {acts : List Did} {act : Did} {pool account : String}

theorem owed_concat (h : Owed (acts ++ [act]) pool account) : ¬act.Applies pool ∧
    (Owed acts pool account ∨
      ∃ pass ledger event, act = .event pool pass ledger event true ∧ account ∈ event.affectedAccounts) := by
  obtain ⟨before, pass, ledger, event, after, heq, hmem, hnot⟩ := h
  rcases Traces.concat_eq_split.1 heq with ⟨-, hact, -⟩ | ⟨after', rfl, rfl⟩
  · exact ⟨hact ▸ id, .inr ⟨pass, ledger, event, hact.symm, hmem⟩⟩
  · refine ⟨hnot act (by simp), .inl ⟨before, pass, ledger, event, after', rfl, hmem, fun a ha => ?_⟩⟩
    exact hnot a (List.mem_append_left _ ha)

theorem lost_concat (h : RangeLost (acts ++ [act]) pool) : ¬act.IsTick pool ∧
    (RangeLost acts pool ∨ ∃ pass ledger event, act = .event pool pass ledger event false) := by
  obtain ⟨before, pass, ledger, event, after, heq, hnot⟩ := h
  rcases Traces.concat_eq_split.1 heq with ⟨-, hact, -⟩ | ⟨after', rfl, rfl⟩
  · exact ⟨hact ▸ id, .inr ⟨pass, ledger, event, hact.symm⟩⟩
  · refine ⟨hnot act (by simp), .inl ⟨before, pass, ledger, event, after', rfl, fun a ha => ?_⟩⟩
    exact hnot a (List.mem_append_left _ ha)

end Acts

/-! ## The invariant -/

/-- Up to what the tick in progress has taken: what is owed waits in
`pending`, what is lost is marked in `unapplied`. Every tick that applied
served what was owed when it was taken up, and every tick that was answered
applied with nothing lost. -/
structure AccountedUpTo (held : String → String → Prop) (marked : String → Prop) (s : TrackerState) : Prop where
  pending : ∀ {pool account}, Owed s.acts pool account →
    account ∈ s.loop.pending.getD pool ∅ ∨ held pool account
  unapplied : ∀ {pool}, RangeLost s.acts pool → pool ∈ s.loop.unapplied ∨ marked pool
  applied : ∀ {before pool pass tick answered after},
    s.acts = before ++ .tick pool pass tick true answered :: after →
      ∃ old new, before = old ++ new ∧ Orderly pool tick new ∧
        ∀ account, Owed old pool account → Serves pool account new
  answered : ∀ {before pool pass tick applied after},
    s.acts = before ++ .tick pool pass tick applied true :: after → applied = true ∧ ¬RangeLost before pool

/-- Between messages nothing is taken. -/
abbrev Accounted : TrackerState → Prop := AccountedUpTo (fun _ _ => False) fun _ => False

section Invariant

variable {held held' : String → String → Prop} {marked marked' : String → Prop} {s : TrackerState} {act : Did}
  {loop : LoopState}

/-- A step that adds an act and changes what the loop carries: what it adds is
to be shown of the act alone. -/
theorem AccountedUpTo.concat (h : AccountedUpTo held marked s)
    (hpending : ∀ {pool account}, ¬act.Applies pool →
      (account ∈ s.loop.pending.getD pool ∅ ∨ held pool account ∨
        ∃ pass ledger event, act = .event pool pass ledger event true ∧ account ∈ event.affectedAccounts) →
      account ∈ loop.pending.getD pool ∅ ∨ held' pool account)
    (hunapplied : ∀ {pool}, ¬act.IsTick pool →
      (pool ∈ s.loop.unapplied ∨ marked pool ∨ ∃ pass ledger event, act = .event pool pass ledger event false) →
      pool ∈ loop.unapplied ∨ marked' pool)
    (happlied : ∀ {pool pass tick answered}, act = .tick pool pass tick true answered →
      ∃ old new, s.acts = old ++ new ∧ Orderly pool tick new ∧
        ∀ account, Owed old pool account → Serves pool account new)
    (hanswered : ∀ {pool pass tick applied}, act = .tick pool pass tick applied true →
      applied = true ∧ ¬RangeLost s.acts pool) :
    AccountedUpTo held' marked' { s with loop := loop, acts := s.acts ++ [act] } := by
  refine ⟨fun ho => ?_, fun hl => ?_, fun heq => ?_, fun heq => ?_⟩
  · obtain ⟨hact, ho | hevent⟩ := owed_concat ho
    · rcases h.pending ho with hin | hin
      · exact hpending hact (.inl hin)
      · exact hpending hact (.inr (.inl hin))
    · exact hpending hact (.inr (.inr hevent))
  · obtain ⟨hact, hl | hevent⟩ := lost_concat hl
    · rcases h.unapplied hl with hin | hin
      · exact hunapplied hact (.inl hin)
      · exact hunapplied hact (.inr (.inl hin))
    · exact hunapplied hact (.inr (.inr hevent))
  · rcases Traces.concat_eq_split.1 heq with ⟨rfl, hact, -⟩ | ⟨after', -, heq⟩
    · exact happlied hact.symm
    · exact h.applied heq
  · rcases Traces.concat_eq_split.1 heq with ⟨rfl, hact, -⟩ | ⟨after', -, heq⟩
    · exact hanswered hact.symm
    · exact h.answered heq

/-- An act that is neither an event nor a tick. -/
theorem AccountedUpTo.concat_other (h : AccountedUpTo held marked s)
    (hevent : ∀ {pool pass ledger event applied}, act ≠ .event pool pass ledger event applied)
    (htick : ∀ {pool pass tick applied answered}, act ≠ .tick pool pass tick applied answered) :
    AccountedUpTo held marked { s with acts := s.acts ++ [act] } := by
  refine h.concat (fun _ hin => ?_) (fun _ hin => ?_) (fun heq => absurd heq htick) fun heq => absurd heq htick
  · rcases hin with hin | hin | ⟨_, _, _, heq, -⟩
    · exact .inl hin
    · exact .inr hin
    · exact absurd heq hevent
  · rcases hin with hin | hin | ⟨_, _, _, heq⟩
    · exact .inl hin
    · exact .inr hin
    · exact absurd heq hevent

theorem AccountedUpTo.unmoved : Unmoved (AccountedUpTo held marked) :=
  fun _ _ _ h => ⟨h.pending, h.unapplied, h.applied, h.answered⟩

theorem AccountedUpTo.scanning {pool : String} {tick : LedgerTick} :
    Scanning pool tick (AccountedUpTo held marked) where
  toFramed := Steady.framed {
    store := fun _ _ h => ⟨h.pending, h.unapplied, h.applied, h.answered⟩
    act := fun s act hinner h => h.concat_other
      (fun heq => by subst heq; exact hinner) fun heq => by subst heq; exact hinner }
  reseeded _ h := ⟨h.pending, h.unapplied, h.applied, h.answered⟩
  scanned _ _ h := ⟨h.pending, h.unapplied, h.applied, h.answered⟩

end Invariant

/-! ## One message -/

section Messages

variable {env : Nat → Reading} {c : Service} {pool : String} {pass ledger ack : Nat} {event : PoolEvent}
  {tick : LedgerTick}

theorem apply_gives : Gives env (fun _ => True) (Tracker.apply pool ledger event) fun accounts _ =>
    accounts = event.affectedAccounts :=
  Gives.bind (R := fun _ _ => True) (fun _ _ _ _ _ => trivial) fun _ _ _ _ _ ha => (Res.ok.inj ha).symm

theorem handleEvent_accounted : Stays env Accounted (Service.handleEvent pass pool ledger event) := by
  have happly : Triple env Accounted (Tracker.apply pool ledger event) fun r s =>
      (r ≠ .running ∧ Accounted s) ∧ ∀ accounts, r = .ok accounts → accounts = event.affectedAccounts :=
    ((apply_stays AccountedUpTo.unmoved).and apply_gives).pre fun s hs => ⟨hs, trivial⟩
  refine Triple.bind_caught happly (fun accounts => ?_) (fun error => ?_) fun s hs => absurd rfl hs.1.1
  · rintro t s ⟨⟨-, hs⟩, haccounts⟩
    obtain rfl := haccounts accounts rfl
    refine ⟨nofun, hs.concat (fun _ hin => .inl ?_) (fun _ hin => .inl ?_) nofun nofun⟩
    · refine TreeMaps.mem_extended.2 ?_
      rcases hin with hin | hin | ⟨_, _, _, heq, hmem⟩
      · exact .inl hin
      · exact hin.elim
      · cases heq
        exact .inr ⟨rfl, hmem⟩
    · rcases hin with hin | hin | ⟨_, _, _, heq⟩
      · exact hin
      · exact hin.elim
      · cases heq
  · rintro t s ⟨⟨-, hs⟩, -⟩
    refine ⟨nofun, hs.concat (fun _ hin => .inl ?_) (fun _ hin => .inl ?_) nofun nofun⟩
    · rcases hin with hin | hin | ⟨_, _, _, heq, -⟩
      · exact hin
      · exact hin.elim
      · cases heq
    · refine TreeMaps.mem_set_insert.2 ?_
      rcases hin with hin | hin | ⟨_, _, _, heq⟩
      · exact .inr hin
      · exact hin.elim
      · cases heq
        exact .inl rfl

/-- What the tick has taken. -/
def heldFor (pool : String) (accounts : List String) (p account : String) : Prop := p = pool ∧ account ∈ accounts

def markedFor (pool : String) (unapplied : Bool) (p : String) : Prop := p = pool ∧ unapplied = true

theorem Accounted.taken {s : TrackerState} (h : Accounted s) : AccountedUpTo
    (heldFor pool (s.loop.pending.getD pool ∅).toList)
    (markedFor pool (decide (pool ∈ s.loop.unapplied))) (taken pool s) := by
  refine ⟨fun ho => ?_, fun hl => ?_, h.applied, h.answered⟩
  · rename_i p account
    have hin := (h.pending ho).resolve_right id
    show account ∈ (s.loop.pending.erase pool).getD p ∅ ∨ _
    rw [TreeMaps.getD_erase]
    split
    · next hp =>
      subst hp
      exact .inr ⟨rfl, by simpa using hin⟩
    · exact .inl hin
  · rename_i p
    have hin := (h.unapplied hl).resolve_right id
    by_cases hp : pool = p
    · subst hp
      exact .inr ⟨rfl, by simpa using hin⟩
    · exact .inl (TreeMaps.mem_set_erase.2 ⟨hp, hin⟩)

/-- A tick that applied: nothing of its pool is owed or lost any more. -/
theorem AccountedUpTo.tickApplied {accounts : List String} {unapplied answered : Bool} {s₀ s : TrackerState}
    (h₀ : AccountedUpTo (heldFor pool accounts) (markedFor pool unapplied) (taken pool s₀))
    (hs : AccountedUpTo (heldFor pool accounts) (markedFor pool unapplied) s)
    (hgrown : Grown pool tick accounts (taken pool s₀) s) (hanswered : answered = true → unapplied = false) :
    Accounted { s with acts := s.acts ++ [.tick pool ack tick true answered] } := by
  refine hs.concat (fun hact hin => ?_) (fun hact hin => ?_) (fun heq => ?_) fun heq => ?_
  · rcases hin with hin | ⟨rfl, -⟩ | ⟨_, _, _, heq, -⟩
    · exact .inl hin
    · exact absurd ⟨rfl, rfl⟩ hact
    · cases heq
  · rcases hin with hin | ⟨rfl, -⟩ | ⟨_, _, _, heq⟩
    · exact .inl hin
    · exact absurd rfl hact
    · cases heq
  · cases heq
    obtain ⟨new, hnew, horderly, hserves⟩ := hgrown.acts
    refine ⟨_, new, hnew, horderly, fun account ho => hserves account ?_⟩
    rcases h₀.pending ho with hin | hin
    · exact absurd hin (by simp [taken])
    · exact hin.2
  · cases heq
    refine ⟨rfl, fun hl => ?_⟩
    rcases hs.unapplied hl with hin | ⟨-, hmarked⟩
    · rw [hgrown.unapplied] at hin
      exact (TreeMaps.mem_set_erase.1 hin).1 rfl
    · rw [hanswered rfl] at hmarked
      cases hmarked

/-- A tick that failed: what it took is back. -/
theorem AccountedUpTo.tickFailed {accounts : List String} {unapplied : Bool} {s : TrackerState}
    (hs : AccountedUpTo (heldFor pool accounts) (markedFor pool unapplied) s) :
    Accounted { s with
      loop := { s.loop with
        pending := s.loop.pending.insert pool ((s.loop.pending.getD pool ∅).insertMany accounts) }
      acts := s.acts ++ [.tick pool ack tick false false] } := by
  refine hs.concat (fun _ hin => .inl (TreeMaps.mem_extended.2 ?_)) (fun hact hin => ?_) nofun nofun
  · rcases hin with hin | ⟨rfl, hin⟩ | ⟨_, _, _, heq, -⟩
    · exact .inl hin
    · exact .inr ⟨rfl, hin⟩
    · cases heq
  · rcases hin with hin | ⟨rfl, -⟩ | ⟨_, _, _, heq⟩
    · exact .inl hin
    · exact absurd rfl hact
    · cases heq

/-- A tick is about to be applied. -/
def Taking (pool : String) (accounts : List String) (unapplied : Bool) (s : TrackerState) : Prop :=
  ∃ s₀, AccountedUpTo (heldFor pool accounts) (markedFor pool unapplied) (taken pool s₀) ∧ s = taken pool s₀

theorem handleTick_accounted : Stays env Accounted (c.handleTick pool tick ack) := by
  refine Triple.bind_read fun accounts => Triple.bind_read fun unapplied => ?_
  have htaken : ∀ s, (Accounted s ∧ (s.loop.pending.getD pool ∅).toList = accounts) ∧
      decide (pool ∈ s.loop.unapplied) = unapplied → Taking pool accounts unapplied (taken pool s) := by
    rintro s ⟨⟨hs, rfl⟩, rfl⟩
    exact ⟨s, hs.taken, rfl⟩
  refine Triple.bind_modify htaken (Triple.ex fun s₀ => Triple.given fun h₀ => ?_)
  have happly : Triple env (· = taken pool s₀) (c.applyTick pool accounts tick) fun r s =>
      (r ≠ .running ∧ AccountedUpTo (heldFor pool accounts) (markedFor pool unapplied) s) ∧
        ∀ a, r = .ok a → Grown pool tick accounts (taken pool s₀) s :=
    ((applyTick_stays AccountedUpTo.scanning.looping).and applyTick_serves).pre fun s hs => by
      subst hs
      exact ⟨h₀, Grown.refl⟩
  refine Triple.bind_caught happly (fun _ => ?_) (fun error => ?_) fun s hs => absurd rfl hs.1.1
  · rintro t s ⟨⟨-, hs⟩, hgrown⟩
    have hdone : ∀ {answered}, (answered = true → unapplied = false) →
        Accounted { s with acts := s.acts ++ [.tick pool ack tick true answered] } :=
      h₀.tickApplied hs (hgrown _ rfl)
    cases unapplied with
    | true => exact ⟨nofun, hdone nofun⟩
    | false =>
      have hanswered := @hdone true fun _ => rfl
      refine ⟨nofun, ?_⟩
      show Accounted (if _ then _ else _)
      split
      · exact ⟨hanswered.pending, hanswered.unapplied, hanswered.applied, hanswered.answered⟩
      · exact hanswered
  · rintro t s ⟨⟨-, hs⟩, -⟩
    exact ⟨nofun, hs.tickFailed⟩

theorem handleGap_accounted : Stays env Accounted (c.handleGap pool) := by
  refine (did_stays fun s hs => hs.concat_other nofun nofun).bind fun _ => ?_
  refine (setLoop_stays fun _ hs => ⟨hs.pending, hs.unapplied, hs.applied, hs.answered⟩).bind fun _ => ?_
  refine Stays.ask.bind fun answer => Stays.lift.bind fun head => ?_
  exact reseed_stays AccountedUpTo.scanning

/-- The loop stays accounted, whatever the message and whatever fails. -/
theorem handleMessage_accounted {message : PollerMessage} :
    Stays env Accounted (c.handleMessage pass message) := by
  cases message with
  | event pool ledger event => exact handleEvent_accounted
  | tick pool tick ack => exact handleTick_accounted
  | gap pool _ _ => exact handleGap_accounted

/-- Nothing waiting was lost since `s₀`. -/
def Waiting (s₀ s : TrackerState) : Prop :=
  ∀ q account, account ∈ s₀.loop.pending.getD q ∅ → account ∈ s.loop.pending.getD q ∅

theorem waiting_scanning {s₀ : TrackerState} : Scanning pool tick (Waiting s₀) where
  toFramed := Steady.framed { store := fun _ _ h => h, act := fun _ _ _ h => h }
  reseeded _ h := h
  scanned _ _ h := h

/-- `accounts` waited in `s₀`, and are taken. -/
def TakenFrom (pool : String) (accounts : List String) (s₀ s : TrackerState) : Prop :=
  accounts = (s₀.loop.pending.getD pool ∅).toList ∧ s = taken pool s₀

theorem handleTick_waiting {s₀ : TrackerState} : Triple env (· = s₀) (c.handleTick pool tick ack) fun r s =>
    ∀ error, r = .err error → Waiting s₀ s := by
  refine Triple.bind_read fun accounts => Triple.bind_read fun unapplied => ?_
  have htaken : ∀ s, (s = s₀ ∧ (s.loop.pending.getD pool ∅).toList = accounts) ∧
      decide (pool ∈ s.loop.unapplied) = unapplied → TakenFrom pool accounts s₀ (taken pool s) := by
    rintro s ⟨⟨rfl, rfl⟩, -⟩
    exact ⟨rfl, rfl⟩
  refine Triple.bind_modify htaken (Triple.given fun haccounts => ?_)
  have happly : Triple env (· = taken pool s₀) (c.applyTick pool accounts tick) fun r s =>
      r ≠ .running ∧ Grown pool tick [] (taken pool s₀) s :=
    Triple.pre (applyTick_stays Grown.scanning.looping) fun _ hs => hs ▸ Grown.refl
  refine Triple.bind_caught happly (fun _ => ?_) (fun error => ?_) fun s hs => absurd rfl hs.1
  · rintro t s -
    cases unapplied with
    | true => exact nofun
    | false => exact nofun
  · rintro t s ⟨-, hgrown⟩ _ - q account hin
    refine TreeMaps.mem_extended.2 ?_
    rw [hgrown.pending]
    show account ∈ (s₀.loop.pending.erase pool).getD q ∅ ∨ _
    rw [TreeMaps.getD_erase]
    by_cases hq : pool = q
    · subst hq
      exact .inr ⟨rfl, by simpa [haccounts] using hin⟩
    · rw [if_neg hq]
      exact .inl hin

/-- A message that fails takes no account out of `pending`. -/
theorem handleMessage_waiting {message : PollerMessage} {s₀ : TrackerState} :
    Triple env (· = s₀) (c.handleMessage pass message) fun r s => ∀ error, r = .err error → Waiting s₀ s := by
  have hrefl : ∀ s, s = s₀ → Waiting s₀ s := fun s hs _ _ hin => hs ▸ hin
  cases message with
  | event pool ledger event =>
    have happly : Stays env (Waiting s₀) (Tracker.apply pool ledger event) := apply_stays fun _ _ _ h => h
    refine Triple.pre (Triple.bind_caught happly (fun _ => ?_) (fun error => ?_) fun s hs => absurd rfl hs.1) hrefl
    · exact fun _ _ _ => nofun
    · exact fun _ _ hs _ _ => hs.2
  | tick pool tick ack => exact handleTick_waiting
  | gap pool _ _ =>
    have hgap : Stays env (Waiting s₀) (c.handleGap pool) := by
      refine (did_stays fun _ hs => hs).bind fun _ => ?_
      refine (setLoop_stays fun _ hs => hs).bind fun _ => ?_
      exact Stays.ask.bind fun answer => Stays.lift.bind fun head => reseed_stays waiting_scanning
    exact hgap.conseq hrefl fun _ _ hs _ _ => hs.2

theorem longer_scanning {base : List Did} : Scanning pool tick fun s => base <+: s.acts where
  toFramed := longer_steady.framed
  reseeded _ h := h
  scanned _ _ h := h

/-- Nothing is taken off the record. -/
theorem handleMessage_longer {message : PollerMessage} {base : List Did} :
    Stays env (fun s => base <+: s.acts) (c.handleMessage pass message) :=
  handleMessage_stays {
    looping := fun _ => longer_scanning.looping
    extended := fun _ _ h => h
    marked := fun _ h => h
    taken := fun _ h => h
    gapped := fun _ h => h.trans (List.prefix_append _ _)
    ends := fun _ _ _ h => h.trans (List.prefix_append _ _)
    published := fun _ _ h => h }

end Messages

/-! ## Served -/

/-- A tick that applied after an event has served the accounts it named. -/
theorem AccountedUpTo.served {held : String → String → Prop} {marked : String → Prop} {s : TrackerState}
    {before after later : List Did} {pool account : String} {pass ledger : Nat} {event : PoolEvent} {act : Did}
    (h : AccountedUpTo held marked s)
    (hacts : s.acts = before ++ .event pool pass ledger event true :: (after ++ later))
    (hmem : account ∈ event.affectedAccounts) (hact : act ∈ after) (happlies : act.Applies pool) :
    Serves pool account after := by
  -- The first such tick found the account owed.
  obtain ⟨mid, first, rest, rfl, hfirst, hmid⟩ := Traces.exists_first (p := Did.Applies pool) hact happlies
  cases first with
  | tick p n t applied answered =>
    obtain ⟨rfl, rfl⟩ := hfirst
    have htick : s.acts = (before ++ .event p pass ledger event true :: mid) ++
        .tick p n t true answered :: (rest ++ later) := by
      rw [hacts]
      simp
    obtain ⟨old, new, hsplit, horderly, hserves⟩ := h.applied htick
    rcases Traces.append_eq_split hsplit.symm with ⟨mid', rfl, rfl⟩ | ⟨before', -, rfl⟩
    · have howed : Owed (before ++ .event p pass ledger event true :: mid') p account :=
        ⟨before, pass, ledger, event, mid', rfl, hmem, fun a ha => hmid a (List.mem_append_left _ ha)⟩
      exact ((hserves account howed).append_left).append_right
    · exact (horderly.inner (.event p pass ledger event true) (by simp)).elim
  | event | gap | read | row | refreshed | flagged | stopped | seeded => exact hfirst.elim

/-! ## Other pools -/

/-- Whatever was done for `pool`, another pool waits for what it waited for, is
marked as it was, and was answered what it was answered. -/
structure Elsewhere (pool : String) (s₀ s : TrackerState) : Prop where
  pending : ∀ q, q ≠ pool → s.loop.pending[q]? = s₀.loop.pending[q]?
  unapplied : ∀ q, q ≠ pool → (q ∈ s.loop.unapplied ↔ q ∈ s₀.loop.unapplied)
  acks : ∀ q, q ≠ pool → ∀ pass, ackOf s.acts q pass = ackOf s₀.acts q pass

section Elsewhere

variable {env : Nat → Reading} {c : Service} {pool : String} {s₀ s : TrackerState} {act : Did}

theorem ackOf_concat {acts : List Did} {q : String} {pass : Nat}
    (h : ∀ pass' tick applied answered, act ≠ .tick q pass' tick applied answered) :
    ackOf (acts ++ [act]) q pass = ackOf acts q pass := by
  unfold ackOf
  rw [List.findSome?_append, List.findSome?_cons]
  cases act with
  | tick p pass' tick applied answered =>
    have hp : p ≠ q := fun hp => h pass' tick applied answered (by rw [hp])
    simp [hp]
  | event | gap | read | row | refreshed | flagged | stopped | seeded => simp

theorem Elsewhere.extended {accounts : BTreeSet String} (h : Elsewhere pool s₀ s) :
    Elsewhere pool s₀ { s with loop := { s.loop with pending := s.loop.pending.insert pool accounts } } := by
  refine ⟨fun q hq => ?_, h.unapplied, h.acks⟩
  rw [← h.pending q hq, TreeMaps.getElem?_insert, if_neg (Ne.symm hq)]

theorem Elsewhere.marked (h : Elsewhere pool s₀ s) :
    Elsewhere pool s₀ { s with loop := { s.loop with unapplied := s.loop.unapplied.insert pool } } := by
  refine ⟨h.pending, fun q hq => ?_, h.acks⟩
  rw [← h.unapplied q hq, TreeMaps.mem_set_insert]
  exact or_iff_right (Ne.symm hq)

theorem Elsewhere.taken (h : Elsewhere pool s₀ s) : Elsewhere pool s₀ (taken pool s) := by
  refine ⟨fun q hq => ?_, fun q hq => ?_, h.acks⟩
  · rw [← h.pending q hq]
    exact (TreeMaps.getElem?_erase _ _ _).trans (if_neg (Ne.symm hq))
  · rw [← h.unapplied q hq]
    exact TreeMaps.mem_set_erase.trans (and_iff_right (Ne.symm hq))

theorem Elsewhere.did (h : Elsewhere pool s₀ s)
    (hact : ∀ q, q ≠ pool → ∀ pass tick applied answered, act ≠ .tick q pass tick applied answered) :
    Elsewhere pool s₀ { s with acts := s.acts ++ [act] } :=
  ⟨h.pending, h.unapplied, fun q hq pass => (ackOf_concat (hact q hq)).trans (h.acks q hq pass)⟩

theorem Elsewhere.scanning {tick : LedgerTick} : Scanning pool tick (Elsewhere pool s₀) where
  toFramed := Steady.framed {
    store := fun _ _ h => ⟨h.pending, h.unapplied, h.acks⟩
    act := fun s act hinner h => h.did fun _ _ _ _ _ _ heq => by subst heq; exact hinner }
  reseeded _ h := ⟨h.pending, h.unapplied, h.acks⟩
  scanned _ _ h := ⟨h.pending, h.unapplied, h.acks⟩

/-- Whatever the message and whatever fails, a pool it is not about is left
alone. -/
theorem handleMessage_elsewhere {pass : Nat} {message : PollerMessage} :
    Stays env (Elsewhere message.pool s₀) (c.handleMessage pass message) :=
  handleMessage_stays {
    looping := fun _ => Elsewhere.scanning.looping
    extended := fun _ _ h => h.extended
    marked := fun _ h => h.marked
    taken := fun _ h => h.taken
    gapped := fun _ h => ⟨h.pending, h.unapplied, fun q hq pass =>
      (ackOf_concat (by exact nofun)).trans (h.acks q hq pass)⟩
    ends := fun _ _ hends h => h.did fun _ hq _ _ _ _ heq => by
      subst heq
      exact hq hends
    published := fun _ _ h => ⟨h.pending, h.unapplied, h.acks⟩ }

end Elsewhere

end BlendLiquidator
