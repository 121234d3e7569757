/-
The auctioneer's task beside the tracker: one process, whose tracker publishes
the ticks it has answered on a watch and whose auctioneer takes the newest of
them.

The tracker, the pollers that feed it and the auctioneer's task move one call at
a time, in any order. The watch is all that goes from one to the other, and it
carries a ledger only once its effects are in the store: so whatever the task
does, it does on a ledger that was acknowledged, and its ledgers only go forward.
-/
import BlendLiquidator.Acknowledged
import BlendLiquidator.AuctioneerScans

namespace BlendLiquidator

open Calls Oracle

/-! ## The process -/

/-- The pollers and the tracker, the published tick the task has seen, and the
task. -/
structure Process where
  system : System
  seen : LedgerTick := ⟨0, 0⟩
  auctioneer : Ongoing TaskCall TaskCall.Answer StoreError Unit

inductive ProcessLabel
  | system (label : SystemLabel)
  | auctioneer (world : (o : TaskCall) → o.Answer)

namespace Process

/-- What the task's call is answered. It waits for a tick it has not seen, or
for the end of the tracker's loop; it takes the one published last; anything
else is answered as the world has it. -/
def answer (p : Process) (world : (o : TaskCall) → o.Answer) : (o : TaskCall) → Option o.Answer
  | .changed =>
    if p.seen.sequence < p.system.tracker.published.sequence then some true
    else if world .changed then none else some false
  | .borrow => some p.system.tracker.published
  | .stopping => some (world .stopping)
  | .write statement => some (world (.write statement))
  | .needing pool limit => some (world (.needing pool limit))
  | .below pool threshold limit after => some (world (.below pool threshold limit after))
  | .reading call => some (world (.reading call))
  | .acting call => some (world (.acting call))
  | .creation attempt => some (world (.creation attempt))
  | .notify notification => some (world (.notify notification))

/-- What the task has seen after its call: waking for a tick and taking one both
mark what is published. -/
def look (p : Process) : LedgerTick :=
  match p.auctioneer.left with
  | .op .changed _ => if p.seen.sequence < p.system.tracker.published.sequence then p.system.tracker.published else p.seen
  | .op .borrow _ => p.system.tracker.published
  | _ => p.seen

def step (c : Service) (p : Process) : ProcessLabel → Process
  | .system label => { p with system := p.system.step c label }
  | .auctioneer world =>
    { p with seen := p.look, auctioneer := p.auctioneer.answered (p.answer world) }

/-- A process starts with the cursors and tables it finds, and nothing
published. -/
def start (task : AuctioneerTask) (ticks fuel : Nat) (cursors : String → Option Cursor) (store : Store)
    (needsReseed : BTreeSet String) : Process where
  system := System.start cursors store needsReseed
  auctioneer := { left := task.auctioneerLoop ticks fuel }

end Process

/-! ## What is published -/

/-- The tick a ledger's effects were acknowledged with: its range lost no event,
and what every event of its pool named by then was re-read after that event and
flagged. -/
def Acknowledged (acts : List Did) (tick : LedgerTick) : Prop :=
  ∃ before pool pass after, acts = before ++ .tick pool pass tick true true :: after ∧ ¬RangeLost before pool ∧
    ∀ {old pass ledger event new account}, before = old ++ .event pool pass ledger event true :: new →
      account ∈ event.affectedAccounts → Serves pool account new

theorem Acknowledged.extend {acts acts' : List Did} {tick : LedgerTick} (h : Acknowledged acts tick) (hl : acts <+: acts') :
    Acknowledged acts' tick := by
  obtain ⟨before, pool, pass, after, rfl, hlost, hserves⟩ := h
  obtain ⟨more, rfl⟩ := hl
  exact ⟨before, pool, pass, after ++ more, by simp, hlost, hserves⟩

/-- The watch holds the newest tick that was answered. -/
structure Published (s : TrackerState) : Prop where
  newest : ∀ {pool pass tick applied}, .tick pool pass tick applied true ∈ s.acts → tick.sequence ≤ s.published.sequence
  answered : s.published = ⟨0, 0⟩ ∨ ∃ pool pass, .tick pool pass s.published true true ∈ s.acts

section Published

variable {env : Nat → Reading} {c : Service} {s : TrackerState} {act : Did}

theorem Published.other (h : Published s) (hact : ∀ {pool pass tick applied}, act ≠ .tick pool pass tick applied true) :
    Published { s with acts := s.acts ++ [act] } where
  newest hmem := by
    rcases List.mem_append.1 hmem with hmem | hmem
    · exact h.newest hmem
    · exact absurd (List.mem_singleton.1 hmem).symm hact
  answered := h.answered.imp_right fun ⟨pool, pass, hmem⟩ => ⟨pool, pass, List.mem_append_left _ hmem⟩

/-- A tick is answered, and published unless a newer one was. -/
theorem Published.tick (h : Published s) (pool : String) (pass : Nat) (tick : LedgerTick) :
    Published { s with
      acts := s.acts ++ [.tick pool pass tick true true]
      published := if tick.sequence > s.published.sequence then tick else s.published } where
  newest hmem := by
    have hle : ∀ sequence, sequence ≤ s.published.sequence ∨ sequence = tick.sequence →
        sequence ≤ (if tick.sequence > s.published.sequence then tick else s.published).sequence := by
      intro sequence hsequence
      split <;> omega
    rcases List.mem_append.1 hmem with hmem | hmem
    · exact hle _ (.inl (h.newest hmem))
    · cases List.mem_singleton.1 hmem
      exact hle _ (.inr rfl)
  answered := by
    split
    · exact .inr ⟨pool, pass, by simp⟩
    · exact h.answered.imp_right fun ⟨pool, pass, hmem⟩ => ⟨pool, pass, List.mem_append_left _ hmem⟩

theorem Published.scanning {pool : String} {tick : LedgerTick} : Scanning pool tick Published where
  toFramed := Steady.framed {
    store := fun _ _ h => ⟨h.newest, h.answered⟩
    act := fun s act hinner h => h.other fun heq => by subst heq; exact hinner }
  reseeded _ h := ⟨h.newest, h.answered⟩
  scanned _ _ h := ⟨h.newest, h.answered⟩

theorem handleTick_published {pool : String} {tick : LedgerTick} {ack : Nat} : Stays env Published (c.handleTick pool tick ack) := by
  refine Stays.read.bind fun accounts => Stays.read.bind fun unapplied => ?_
  refine (setLoop_stays fun _ hs => ⟨hs.newest, hs.answered⟩).bind fun _ => ?_
  refine (applyTick_stays Published.scanning.looping).caught.bind fun result => ?_
  cases result with
  | error error =>
    refine (setLoop_stays fun _ hs => ⟨hs.newest, hs.answered⟩).bind fun _ => ?_
    exact (did_stays fun s hs => hs.other nofun).bind fun _ => Stays.fail
  | ok _ =>
    cases unapplied with
    | true => exact did_stays fun s hs => hs.other nofun
    | false =>
      -- Between the answer and the publication the watch is behind.
      intro t s hs
      refine ⟨nofun, ?_⟩
      have htick := hs.tick pool ack tick
      show Published (if _ then _ else _)
      split
      · next hnewer =>
        rw [if_pos hnewer] at htick
        exact htick
      · next hnewer =>
        rw [if_neg hnewer] at htick
        exact htick

theorem handleMessage_published {pass : Nat} {message : PollerMessage} :
    Stays env Published (c.handleMessage pass message) := by
  have hunmoved : Unmoved Published := fun _ _ _ h => ⟨h.newest, h.answered⟩
  cases message with
  | event pool ledger event =>
    refine (apply_stays hunmoved).caught.bind fun result => ?_
    cases result with
    | ok accounts =>
      refine (setLoop_stays fun _ hs => ⟨hs.newest, hs.answered⟩).bind fun _ => ?_
      exact did_stays fun s hs => hs.other nofun
    | error error =>
      refine (setLoop_stays fun _ hs => ⟨hs.newest, hs.answered⟩).bind fun _ => ?_
      exact (did_stays fun s hs => hs.other nofun).bind fun _ => Stays.fail
  | tick pool tick ack => exact handleTick_published
  | gap pool _ _ =>
    refine (did_stays fun s hs => hs.other nofun).bind fun _ => ?_
    refine (setLoop_stays fun _ hs => ⟨hs.newest, hs.answered⟩).bind fun _ => ?_
    exact Stays.ask.bind fun answer => Stays.lift.bind fun head => reseed_stays Published.scanning

end Published

/-- A tick that was answered is acknowledged. -/
theorem Accounted.acknowledged {s : TrackerState} (h : Accounted s) {pool : String} {pass : Nat} {tick : LedgerTick}
    (hmem : .tick pool pass tick true true ∈ s.acts) : Acknowledged s.acts tick := by
  obtain ⟨before, after, hacts⟩ := List.append_of_mem hmem
  obtain ⟨-, hlost⟩ := h.answered hacts
  refine ⟨before, pool, pass, after, hacts, hlost, fun {old} pass' ledger event new account heq hnamed => ?_⟩
  obtain ⟨earlier, own, rfl, horderly, hserves⟩ := h.applied hacts
  rcases Traces.append_eq_split heq with ⟨rest, rfl, rfl⟩ | ⟨rest, -, rfl⟩
  · by_cases happlied : ∃ act ∈ rest, act.Applies pool
    · obtain ⟨act, hact, happlies⟩ := happlied
      have hsplit : s.acts = old ++ .event pool pass' ledger event true ::
          (rest ++ (own ++ .tick pool pass tick true true :: after)) := by
        rw [hacts]
        simp
      exact (h.served hsplit hnamed hact happlies).append_right
    · have howed : Owed (old ++ .event pool pass' ledger event true :: rest) pool account :=
        ⟨old, pass', ledger, event, rest, rfl, hnamed, fun act hact happlies => happlied ⟨act, hact, happlies⟩⟩
      exact (hserves account howed).append_left
  · exact (horderly.inner (.event pool pass' ledger event true) (by simp)).elim

/-! ## How the task takes its ticks -/

/-- The task was just woken: nothing but a look for a shutdown came since. -/
def Woken (l : List (Entry TaskCall.Answer)) : Prop :=
  ∃ before, l = before ++ [⟨.changed, true⟩] ∨ ∃ stopping, l = before ++ [⟨.changed, true⟩, ⟨.stopping, stopping⟩]

namespace AuctioneerTask

variable {task : AuctioneerTask} {l : List (Entry TaskCall.Answer)} {tick : LedgerTick} {pool : String} {submit : Bool}
  {state : AuctioneerState}

/-- A call a tick's turns may make. -/
def Turning (_ : List (Entry TaskCall.Answer)) (o : TaskCall) : Prop := o.borrows = false

theorem carryOut_turning {o : RecheckCall} :
    Keeps (fun _ _ _ => True) Turning (fun _ _ => True) l (task.carryOut submit state o) := by
  have hplain : ∀ l' o, Unseen (scansOf l) l' → o.plain = true → Turning l' o := by
    intro l' o _ ho
    cases o <;> first | rfl | cases ho
  cases o with
  | write statement => exact Keeps.bind_call rfl fun _ _ => trivial
  | needing pool limit => exact Keeps.bind_call rfl fun _ _ => trivial
  | below pool threshold limit after => exact Keeps.bind_call rfl fun _ _ => trivial
  | stopping => exact Keeps.bind_call rfl fun _ _ => trivial
  | decide pool batch tick => exact (decide_unseen hplain rfl).bind (fun _ _ _ => trivial) fun _ _ _ => trivial
  | act pool account decision tick => exact (act_unseen hplain rfl).bind (fun _ _ _ => trivial) fun _ _ _ => trivial
  | moves pool tick =>
    refine Keeps.bind_call rfl fun answer _ => ?_
    split <;> trivial

theorem part_turning {α : Type} {m : Rechecking α} :
    Keeps (fun _ _ _ => True) Turning (fun _ _ => True) l (m.carried (task.carryOut submit) state) :=
  (Keeps.carried (A := fun _ _ _ => True) (P := fun _ _ => True) (R := fun _ _ _ => True) (E := fun _ _ => True)
    (fun _ _ _ _ _ _ => carryOut_turning.mono (fun _ _ h => h) fun _ _ _ => ⟨fun _ _ _ => ⟨trivial, trivial⟩, fun _ _ => trivial⟩)
    (Keeps.any (l := [])) trivial).mono (fun _ _ h => h) fun _ _ _ => trivial

theorem poolTick_turning {fuel : Nat} :
    Keeps (fun _ _ _ => True) Turning (fun _ _ => True) l (task.poolTick submit tick fuel pool state) := by
  refine part_turning.bind (fun l answer _ => ?_) fun _ _ _ => trivial
  refine part_turning.bind (fun l answer _ => ?_) fun _ _ _ => trivial
  obtain ⟨ended, state⟩ := answer
  cases ended with
  | false => trivial
  | true =>
    refine Keeps.bind_call rfl fun answer _ => ?_
    refine Keeps.bind_lift (fun batch _ => ?_) fun _ _ => trivial
    exact part_turning.bind (fun _ _ _ => trivial) fun _ _ _ => trivial

theorem poolTicks_turning {fuel : Nat} {pools : List String} :
    Keeps (fun _ _ _ => True) Turning (fun _ _ => True) l (task.poolTicks submit tick fuel pools state) := by
  induction pools generalizing l state with
  | nil => trivial
  | cons pool rest ih =>
    refine Keeps.bind_call rfl fun stopping _ => ?_
    cases stopping with
    | true => trivial
    | false =>
      refine poolTick_turning.bind (fun l answer _ => ?_) fun _ _ _ => trivial
      cases answer with
      | none => trivial
      | some state => exact ih

/-- A tick is taken only when the task was just woken for it. -/
theorem loop_woken {ticks fuel : Nat} :
    Keeps (fun _ _ _ => True) (fun l o => o = .borrow → Woken l) (fun _ _ => True) l (task.loopFrom fuel ticks state) := by
  induction ticks generalizing l state with
  | zero => trivial
  | succ ticks ih =>
    refine Keeps.bind_call (fun heq => by cases heq) fun changed _ => ?_
    cases changed with
    | false => trivial
    | true =>
      refine Keeps.bind_call (fun heq => by cases heq) fun stopping _ => ?_
      cases stopping with
      | true => trivial
      | false =>
        refine Keeps.bind_call (fun _ => ⟨l, .inr ⟨false, by simp⟩⟩) fun tick _ => ?_
        have hturns := @poolTicks_turning task (l ++ [⟨.changed, true⟩] ++ [⟨.stopping, false⟩] ++ [⟨.borrow, tick⟩]) tick
        refine (hturns.mono (fun l o ho heq => ?_) fun _ _ h => h).bind (fun l answer _ => ?_) fun _ _ _ => trivial
        · subst heq
          cases ho
        · cases answer with
          | none => trivial
          | some state => exact ih

end AuctioneerTask

/-! ## Runs of the process -/

theorem Published.mono {s s' : TrackerState} (h : Published s) (h' : Published s') (hl : s.acts <+: s'.acts) :
    s.published.sequence ≤ s'.published.sequence := by
  rcases h.answered with heq | ⟨pool, pass, hmem⟩
  · rw [heq]
    exact Nat.zero_le _
  · exact h'.newest (hl.subset hmem)

theorem ticksOf_concat {l : List (Entry TaskCall.Answer)} {o : TaskCall} {a : o.Answer} (ho : o.borrows = false) :
    ticksOf (l ++ [⟨o, a⟩]) = ticksOf l := by
  have hnone : ticksOf [(⟨o, a⟩ : Entry TaskCall.Answer)] = [] :=
    AuctioneerTask.ticksOf_of_not fun e he => by rw [List.mem_singleton.1 he]; exact ho
  rw [AuctioneerTask.ticksOf_append, hnone, List.append_nil]

/-- What the last call says of a task just woken. -/
theorem woken_concat {l : List (Entry TaskCall.Answer)} {e : Entry TaskCall.Answer} (h : Woken (l ++ [e])) :
    e = ⟨.changed, true⟩ ∨ (∃ stopping, e = ⟨.stopping, stopping⟩) ∧ Woken l := by
  obtain ⟨before, heq | ⟨stopping, heq⟩⟩ := h
  · exact .inl (List.singleton_inj.1 (List.append_inj' heq rfl).2)
  · have hcons : l ++ [e] = before ++ [⟨.changed, true⟩] ++ [⟨.stopping, stopping⟩] := heq.trans (List.append_cons ..)
    obtain ⟨hl, he⟩ := List.append_inj' hcons rfl
    exact .inr ⟨⟨stopping, List.singleton_inj.1 he⟩, before, .inl hl⟩

namespace Process

/-- How the task stands to what the tracker published: it has seen and taken
only what was, one tick after the other. -/
structure Fed (p : Process) : Prop where
  published : Published p.system.tracker
  accounted : Accounted p.system.tracker
  seen : p.seen.sequence ≤ p.system.tracker.published.sequence
  taken : ∀ tick ∈ ticksOf p.auctioneer.record, tick.sequence ≤ p.seen.sequence
  woken : Woken p.auctioneer.record →
    0 < p.seen.sequence ∧ ∀ tick ∈ ticksOf p.auctioneer.record, tick.sequence < p.seen.sequence
  forward : (ticksOf p.auctioneer.record).Pairwise fun t t' => t.sequence < t'.sequence
  acknowledged : ∀ tick ∈ ticksOf p.auctioneer.record, Acknowledged p.system.tracker.acts tick
  paced : Keeps (fun _ _ _ => True) (fun l o => o = .borrow → Woken l) (fun _ _ => True) p.auctioneer.record
    p.auctioneer.left

variable {c : Service} {p : Process}

/-- The tracker's side moves: what is published only gets newer. -/
theorem Fed.system (h : p.Fed) (label : SystemLabel) : Fed { p with system := p.system.step c label } := by
  have hpublished : Published (p.system.step c label).tracker :=
    step_tracker h.published fun _ _ _ => handleMessage_published
  have hlonger : p.system.tracker.acts <+: (p.system.step c label).tracker.acts :=
    step_tracker (I := fun s => p.system.tracker.acts <+: s.acts) List.prefix_rfl fun _ _ _ => handleMessage_longer
  exact {
    published := hpublished
    accounted := step_tracker h.accounted fun _ _ _ => handleMessage_accounted
    seen := h.seen.trans (h.published.mono hpublished hlonger)
    taken := h.taken
    woken := h.woken
    forward := h.forward
    acknowledged := fun tick htick => (h.acknowledged tick htick).extend hlonger
    paced := h.paced }

/-- A call that takes no tick and wakes for none. -/
theorem Fed.quiet (h : p.Fed) {o : TaskCall} {next : o.Answer → Tasking Unit} {a : o.Answer}
    (hleft : p.auctioneer.left = .op o next) (hborrow : o.borrows = false)
    (hquiet : (⟨o, a⟩ : Entry TaskCall.Answer) ≠ ⟨.changed, true⟩) :
    Fed { p with auctioneer := { left := next a, record := p.auctioneer.record ++ [⟨o, a⟩] } } := by
  have hticks := @ticksOf_concat p.auctioneer.record o a hborrow
  have hpaced := h.paced
  rw [hleft] at hpaced
  exact {
    published := h.published
    accounted := h.accounted
    seen := h.seen
    taken := by rw [hticks]; exact h.taken
    woken := fun hwoken => by
      rw [hticks]
      exact h.woken ((woken_concat hwoken).resolve_left hquiet).2
    forward := by rw [hticks]; exact h.forward
    acknowledged := by rw [hticks]; exact h.acknowledged
    paced := hpaced.2 a trivial }

/-- The task wakes for a newer tick than it has seen. -/
theorem Fed.wakes (h : p.Fed) {next : Bool → Tasking Unit} (hleft : p.auctioneer.left = .op .changed next)
    (hnewer : p.seen.sequence < p.system.tracker.published.sequence) :
    Fed { p with
      seen := p.system.tracker.published
      auctioneer := { left := next true, record := p.auctioneer.record ++ [⟨.changed, true⟩] } } := by
  have hticks := @ticksOf_concat p.auctioneer.record .changed true rfl
  have hpaced := h.paced
  rw [hleft] at hpaced
  exact {
    published := h.published
    accounted := h.accounted
    seen := le_rfl
    taken := by rw [hticks]; exact fun tick htick => (h.taken tick htick).trans hnewer.le
    woken := fun _ => by
      rw [hticks]
      exact ⟨Nat.zero_lt_of_lt hnewer, fun tick htick => (h.taken tick htick).trans_lt hnewer⟩
    forward := by rw [hticks]; exact h.forward
    acknowledged := by rw [hticks]; exact h.acknowledged
    paced := hpaced.2 true trivial }

/-- The task takes what is published: it was woken for it or for an older one. -/
theorem Fed.takes (h : p.Fed) {next : LedgerTick → Tasking Unit} (hleft : p.auctioneer.left = .op .borrow next) :
    Fed { p with
      seen := p.system.tracker.published
      auctioneer := {
        left := next p.system.tracker.published
        record := p.auctioneer.record ++ [⟨.borrow, p.system.tracker.published⟩] } } := by
  have hticks : ticksOf (p.auctioneer.record ++ [⟨.borrow, p.system.tracker.published⟩]) =
      ticksOf p.auctioneer.record ++ [p.system.tracker.published] := AuctioneerTask.ticksOf_append
  have hpaced := h.paced
  rw [hleft] at hpaced
  obtain ⟨hpositive, hnewer⟩ := h.woken (hpaced.1 rfl)
  have hacknowledged : Acknowledged p.system.tracker.acts p.system.tracker.published := by
    rcases h.published.answered with heq | ⟨pool, pass, hmem⟩
    · have hseen := h.seen
      rw [heq] at hseen
      exact absurd hseen (Nat.not_le.2 hpositive)
    · exact h.accounted.acknowledged hmem
  exact {
    published := h.published
    accounted := h.accounted
    seen := le_rfl
    taken := fun tick htick => by
      rw [hticks] at htick
      rcases List.mem_append.1 htick with htick | htick
      · exact (h.taken tick htick).trans h.seen
      · rw [List.mem_singleton.1 htick]
    woken := fun hwoken => by
      rcases woken_concat hwoken with heq | ⟨⟨_, heq⟩, -⟩ <;> cases heq
    forward := by
      rw [hticks]
      refine List.pairwise_append.2 ⟨h.forward, List.pairwise_singleton _ _, fun tick htick tick' htick' => ?_⟩
      rw [List.mem_singleton.1 htick']
      exact (hnewer tick htick).trans_le h.seen
    acknowledged := fun tick htick => by
      rw [hticks] at htick
      rcases List.mem_append.1 htick with htick | htick
      · exact h.acknowledged tick htick
      · rw [List.mem_singleton.1 htick]
        exact hacknowledged
    paced := hpaced.2 _ trivial }

theorem Fed.step (h : p.Fed) (label : ProcessLabel) : (p.step c label).Fed := by
  cases label with
  | system label => exact h.system label
  | auctioneer world =>
    obtain ⟨system, seen, left, record⟩ := p
    cases left with
    | ret a => exact h
    | fail e => exact h
    | op o next =>
      cases o with
      | changed =>
        by_cases hnewer : seen.sequence < system.tracker.published.sequence
        · have hwakes := h.wakes rfl hnewer
          simpa [Process.step, look, Ongoing.answered, answer, hnewer] using hwakes
        · cases hworld : world .changed with
          | true => simpa [Process.step, look, Ongoing.answered, answer, hnewer, hworld] using h
          | false =>
            have hends := @Fed.quiet _ h .changed next false rfl rfl (fun heq => by cases heq)
            simpa [Process.step, look, Ongoing.answered, answer, hnewer, hworld] using hends
      | borrow => exact h.takes rfl
      | stopping => exact @Fed.quiet _ h .stopping next _ rfl rfl (fun heq => by cases heq)
      | write statement => exact @Fed.quiet _ h (.write statement) next _ rfl rfl (fun heq => by cases heq)
      | needing pool limit => exact @Fed.quiet _ h (.needing pool limit) next _ rfl rfl (fun heq => by cases heq)
      | below pool threshold limit after =>
        exact @Fed.quiet _ h (.below pool threshold limit after) next _ rfl rfl (fun heq => by cases heq)
      | reading call => exact @Fed.quiet _ h (.reading call) next _ rfl rfl (fun heq => by cases heq)
      | acting call => exact @Fed.quiet _ h (.acting call) next _ rfl rfl (fun heq => by cases heq)
      | creation attempt => exact @Fed.quiet _ h (.creation attempt) next _ rfl rfl (fun heq => by cases heq)
      | notify notification => exact @Fed.quiet _ h (.notify notification) next _ rfl rfl (fun heq => by cases heq)

theorem fed_start {task : AuctioneerTask} {ticks fuel : Nat} {cursors : String → Option Cursor} {store : Store}
    {needsReseed : BTreeSet String} : (start task ticks fuel cursors store needsReseed).Fed where
  published := ⟨fun hmem => (by cases hmem), .inl rfl⟩
  accounted := accounted_start
  seen := le_rfl
  taken _ htick := by cases htick
  woken := by
    rintro ⟨before, heq | ⟨stopping, heq⟩⟩ <;> simp [start] at heq
  forward := .nil
  acknowledged _ htick := by cases htick
  paced := AuctioneerTask.loop_woken

/-- Every run keeps the task fed, and what its own calls keep. -/
theorem run_fed {task : AuctioneerTask} {ticks fuel : Nat} {cursors : String → Option Cursor} {store : Store}
    {needsReseed : BTreeSet String} {P : List (Entry TaskCall.Answer) → TaskCall → Prop}
    {Q : List (Entry TaskCall.Answer) → Except StoreError Unit → Prop}
    (hloop : Keeps (fun _ _ _ => True) P Q [] (task.auctioneerLoop ticks fuel)) (labels : List ProcessLabel) :
    Fed (labels.foldl (Process.step c) (start task ticks fuel cursors store needsReseed)) ∧
      Keeps (fun _ _ _ => True) P Q
        (labels.foldl (Process.step c) (start task ticks fuel cursors store needsReseed)).auctioneer.record
        (labels.foldl (Process.step c) (start task ticks fuel cursors store needsReseed)).auctioneer.left := by
  induction labels using List.reverseRecOn with
  | nil => exact ⟨fed_start, hloop⟩
  | append_singleton labels label ih =>
    obtain ⟨hfed, hkeeps⟩ := ih
    rw [List.foldl_append]
    refine ⟨hfed.step label, ?_⟩
    cases label with
    | system label => exact hkeeps
    | auctioneer world => exact Ongoing.keeps_answered hkeeps

/-- **The auctioneer works on acknowledged ledgers, newest first.** In every run
of the pollers, the tracker's loop and the auctioneer's task, whatever any of
them is answered and whichever moves: the ticks the task takes only go forward,
each is one whose ledger the tracker had applied in full, and what it is about
to take is the newest answered of any pool. So an operation goes to the queue
only for a decision on reads made after such a ledger's effects were stored, and,
while a `u32` holds the phased ledgers, no pool's prices are read more than twice
in a period. -/
theorem works_on_acknowledged_ledgers (c : Service) (task : AuctioneerTask) (ticks fuel : Nat)
    (cursors : String → Option Cursor) (store : Store) (needsReseed : BTreeSet String) (labels : List ProcessLabel) :
    let p := labels.foldl (Process.step c) (start task ticks fuel cursors store needsReseed)
    let record := p.auctioneer.record
    let acts := p.system.tracker.acts
    (ticksOf record).Pairwise (fun t t' => t.sequence < t'.sequence) ∧
    (∀ tick ∈ ticksOf record, Acknowledged acts tick) ∧
    (∀ next, p.auctioneer.left = .op .borrow next → ∀ pool pass tick applied, .tick pool pass tick applied true ∈ acts →
      tick.sequence ≤ p.system.tracker.published.sequence) ∧
    (∀ submission next, p.auctioneer.left = .op (.acting (.enqueue submission)) next →
      task.Armed record ∧ ∃ before tick since pool account decision, During before tick since record ∧
        Acknowledged acts tick ∧ task.Decided tick since pool account decision ∧
        decision.Orders task.auctioneer.xdr pool account submission.operation) ∧
    ∀ o next, p.auctioneer.left = .op o next →
      (∀ tick ∈ ticksOf record, tick.sequence + task.cadence.oraclePhase < 2 ^ 32) →
      ∀ pool, Sparing task.scanPeriod ((scansOf record).reads.filter (·.pool = pool)) := by
  intro p record acts
  have hgrounded : Keeps (fun _ _ _ => True) task.Grounded (fun _ _ => True) [] (task.auctioneerLoop ticks fuel) :=
    AuctioneerTask.carried_grounded.loop ⟨rfl, fun h => by cases h⟩
  obtain ⟨hfed, hkeeps⟩ := @run_fed c task ticks fuel cursors store needsReseed _ _
    (hgrounded.and (AuctioneerTask.carried_scans.loop AuctioneerTask.paced_start)) labels
  refine ⟨hfed.forward, hfed.acknowledged, fun _ _ pool pass tick applied => hfed.published.newest, ?_, ?_⟩
  · intro submission next hleft
    obtain ⟨harmed, before, tick, since, pool, account, decision, hduring, -, hdecided, horders, -⟩ :=
      (Ongoing.allowed hkeeps hleft).1
    refine ⟨harmed, before, tick, since, pool, account, decision, hduring, hfed.acknowledged tick ?_, hdecided, horders⟩
    rw [AuctioneerTask.ticksOf_during hduring, AuctioneerTask.ticksOf_append]
    exact List.mem_append_right _ (List.mem_singleton_self _)
  · intro o next hleft hfits pool
    have hdue : task.AllDue (scansOf record).reads := (Ongoing.allowed hkeeps hleft).2.allDue
    have hforward : task.Forward record := ⟨hfed.forward.imp fun h => h.le, hfits⟩
    exact (hforward.booking hdue pool).sparing

end Process

end BlendLiquidator
