/-
What a gap report covers (`poll_once`, `gap_reported_at`).

A cursor older than the retained window is reported once: the field
`gap_reported_at` remembers the cursor, and a later pass that finds the same
cursor says nothing more. The window's edge meanwhile moves on. A pass that
fails after the report and one that succeeds long after it read the same
cursor and skip up to different edges, and the ledgers between the two edges
are announced to nobody (`gap_unannounced`). `gaps_announced` is the rule with
the edge held to what the report covered.
-/
import BlendLiquidator.LedgerFacts

namespace BlendLiquidator

open Calls

/-- A poller beside the chain's clock: the last closed ledger, the last head
and window edge the RPC named, and for each cursor the ledger that was the
last closed one when the latest `Gap` for it was sent. -/
structure Clocked where
  poller : PollerState
  now : Nat := 0
  head : Nat := 0
  oldest : Nat := 0
  told : Nat → Option Nat := fun _ => none

/-- A step of the poller and the last closed ledger when it was taken. -/
structure ClockLabel where
  now : Nat
  label : PollLabel

/-- The call a step answers, with its answer. -/
def PollerState.taken (s : PollerState) : PollLabel → Option PollEntry
  | .answer w => match s.pass with
    | .op o _ => some ⟨o, w.answer s o⟩
    | .ret _ | .fail _ => none
  | _ => none

namespace Clocked

/-- What the clock's observer writes down. -/
def observe (s : Clocked) (now : Nat) : Option PollEntry → Clocked
  | some ⟨.health, .ok health⟩ => { s with oldest := health.oldestLedger }
  | some ⟨.latestLedger, .ok head⟩ => { s with head := head.sequence }
  | some ⟨.send (.gap _ last _), true⟩ => { s with told := Function.update s.told last (some now) }
  | _ => s

def step (p : LedgerPoller) (s : Clocked) (l : ClockLabel) : Clocked :=
  { s.observe l.now (s.poller.taken l.label) with
    poller := s.poller.step p l.label, now := l.now }

/-- The chain and the RPC: ledgers close in order, nothing is named before it
closed, and neither head nor the window's edge goes back. -/
def Forward (s : Clocked) (l : ClockLabel) : Prop :=
  s.now ≤ l.now ∧ match s.poller.taken l.label with
    | some ⟨.health, .ok health⟩ => s.oldest ≤ health.oldestLedger ∧ health.oldestLedger ≤ l.now
    | some ⟨.latestLedger, .ok head⟩ => s.head ≤ head.sequence ∧ head.sequence ≤ l.now
    | _ => True

/-- The check `poll_once` lacks: where a pass finds its cursor reported, the
edge it read is at most one past the last ledger closed at the report. -/
def EdgeCovered (s : Clocked) (l : ClockLabel) : Prop :=
  match s.poller.taken l.label with
  | some ⟨.gapReportedAt, some last⟩ =>
    ∀ cursor health closed, storedOf s.poller.log = some (some cursor) → cursor.ledger = last →
      healthOf s.poller.log = some health → s.told last = some closed → health.oldestLedger ≤ closed + 1
  | _ => True

/-- The ledgers the stored cursor is about to be written past unread were
closed by the time a `Gap` for that cursor was sent. -/
def Announced (s : Clocked) : Prop :=
  ∀ cursor start, s.poller.cursor = some cursor → passStart s.poller.log = some start →
    cursor.ledger + 1 < start → ∃ closed, s.told cursor.ledger = some closed ∧ start ≤ closed + 1

end Clocked

/-! ## The pass -/

/-- Every call but the write. -/
def NoWrite : PollOp → Prop
  | .setCursor _ => False
  | _ => True

/-- A record with no cursor write in it. -/
def Unwritten (l : List PollEntry) : Prop := ∀ e ∈ l, NoWrite e.1

/-- What is asked of the calls of a pass: the gap is looked into only once the
pass has read what decides it, the field is set only after a send, and by the
time of the write a gap it found was told. -/
def LedgerPoller.TellsGaps (p : LedgerPoller) (l : List PollEntry) : PollOp → Prop
  | .gapReportedAt | .send (.gap _ _ _) => ∃ health head stored, opening health head stored <+: l
  | .setGapReportedAt last => ∃ oldest, ⟨.send (.gap p.pool last oldest), true⟩ ∈ l
  | .setCursor _ => Unwritten l ∧ ∃ health head stored, opening health head stored <+: l ∧
    ∀ cursor, stored = some cursor → startAfter head stored < health.oldestLedger →
      p.GapTold cursor health.oldestLedger l
  | _ => True

section Pass

variable {p : LedgerPoller} {l : List PollEntry} {A : List PollEntry → (o : PollOp) → o.Answer → Prop}

theorem tellsGaps_of_drains {o : PollOp} (ho : p.Drains o) : p.TellsGaps l o := by
  cases o with
  | send message =>
    cases message with
    | event _ _ _ => trivial
    | _ => exact ho.elim
  | events _ => trivial
  | undecodable _ _ _ => trivial
  | _ => exact ho.elim

theorem noWrite_of_drains {o : PollOp} (ho : p.Drains o) : NoWrite o := by
  cases o with
  | setCursor _ => exact ho.elim
  | _ => trivial

theorem Unwritten.extends {l' : List PollEntry} (hl : Unwritten l) (h : ∀ e ∈ l', e ∈ l ∨ NoWrite e.1) :
    Unwritten l' := by
  intro e he
  rcases h e he with he | he
  · exact hl e he
  · exact he

/-- Where a pass starts, told of its gap and having written nothing. -/
theorem startLedger_tells {health : Health} {head : LatestLedger} {stored : Option Cursor} :
    Keeps A p.TellsGaps (fun l r => match r with
      | .ok _ => opening health head stored <+: l ∧ Unwritten l ∧
        ∀ cursor, stored = some cursor → LedgerPoller.startAfter head stored < health.oldestLedger →
          p.GapTold cursor health.oldestLedger l
      | .error _ => True) (opening health head stored) (p.startLedger health head stored) := by
  have htells : Keeps A p.TellsGaps _ (opening health head stored) (p.startLedger health head stored) :=
    startLedger_keeps ⟨_, _, _, List.prefix_rfl⟩ (fun l' hl' _ _ => ⟨_, _, _, hl'⟩) fun _ _ oldest h => ⟨oldest, h⟩
  have honly : Keeps A (fun _ o => NoWrite o) _ (opening health head stored) (p.startLedger health head stored) :=
    (startLedger_keeps trivial (fun _ _ _ _ => trivial) fun _ _ _ _ => trivial).only
  refine (htells.extends.and honly).mono (fun _ _ => And.left) fun l r hr => ?_
  cases r with
  | error _ => trivial
  | ok start =>
    obtain ⟨⟨hl, -, htold⟩, hadded, -⟩ := hr
    refine ⟨hl, Unwritten.extends ?_ hadded, htold⟩
    intro e he
    simp only [opening, List.mem_cons, List.not_mem_nil, or_false] at he
    rcases he with rfl | rfl | rfl <;> trivial

theorem drainEvents_tells {start : Nat} (hl : Unwritten l) :
    Keeps A p.TellsGaps (fun l' _ => l <+: l' ∧ Unwritten l') l (p.drainEvents start) := by
  have htells : Keeps A p.TellsGaps (fun _ _ => True) l (p.drainEvents start) :=
    drainPages_keeps fun _ _ => tellsGaps_of_drains
  have honly : Keeps A (fun _ o => NoWrite o) (fun _ _ => True) l (p.drainEvents start) :=
    drainPages_keeps fun _ _ => noWrite_of_drains
  refine (htells.extends.and honly.only).mono (fun _ _ => And.left) fun l' r hr => ?_
  exact ⟨hr.1.1, hl.extends hr.2.1⟩

theorem commit_tells {ack : Nat} {health : Health} {head : LatestLedger} {stored : Option Cursor}
    (hopen : opening health head stored <+: l) (hl : Unwritten l)
    (htold : ∀ cursor, stored = some cursor → LedgerPoller.startAfter head stored < health.oldestLedger →
      p.GapTold cursor health.oldestLedger l) :
    Keeps A p.TellsGaps (fun _ _ => True) l (p.commit ack head) := by
  refine commit_keeps trivial (fun _ => trivial) ?_
  refine ⟨hl.extends fun e he => ?_, health, head, stored, hopen.trans (List.prefix_append _ _), ?_⟩
  · simp only [List.mem_append, List.mem_cons, List.not_mem_nil, or_false] at he
    rcases he with he | rfl | rfl
    · exact .inl he
    · exact .inr trivial
    · exact .inr trivial
  · intro cursor hc hstale
    exact (htold cursor hc hstale).imp (List.mem_append_left _) (List.mem_append_left _)

theorem pollOnce_tellsGaps {ack : Nat} :
    Keeps A p.TellsGaps (fun _ _ => True) [] (p.pollOnce ack) := by
  refine Keeps.opening (fun _ => trivial) (fun _ => trivial) (fun _ => trivial) (fun _ _ => trivial) ?_
  intro health head stored
  refine startLedger_tells.bind (fun l start hstart => ?_) fun _ _ _ => trivial
  obtain ⟨hopen, hl, htold⟩ := hstart
  split
  · exact trivial
  · refine (drainEvents_tells hl).bind (fun l' outcome hdrain => ?_) fun _ _ _ => trivial
    obtain ⟨hl', hw⟩ := hdrain
    split
    · refine commit_tells (hopen.trans hl') hw fun cursor hc hstale => ?_
      exact (htold cursor hc hstale).imp (fun h => hl'.subset h) fun h => hl'.subset h
    · exact trivial

end Pass

/-! ## The poller -/

namespace Clocked

variable {p : LedgerPoller} {s : Clocked} {now : Nat} {e : PollEntry}

theorem observe_told {taken : Option PollEntry} {last closed : Nat} (h : s.told last = some closed)
    (hnow : closed ≤ now) : ∃ later, (s.observe now taken).told last = some later ∧ closed ≤ later := by
  unfold observe
  split
  · exact ⟨closed, h, le_rfl⟩
  · exact ⟨closed, h, le_rfl⟩
  · next last' _ =>
    show ∃ later, Function.update s.told last' (some now) last = some later ∧ closed ≤ later
    rw [Function.update_apply]
    split
    · exact ⟨now, rfl, hnow⟩
    · exact ⟨closed, h, le_rfl⟩
  · exact ⟨closed, h, le_rfl⟩

theorem observe_closed {taken : Option PollEntry} {last closed : Nat}
    (hs : ∀ last closed, s.told last = some closed → closed ≤ s.now) (hnow : s.now ≤ now)
    (h : (s.observe now taken).told last = some closed) : closed ≤ now := by
  unfold observe at h
  split at h
  · exact (hs _ _ h).trans hnow
  · exact (hs _ _ h).trans hnow
  · next last' _ =>
    replace h : Function.update s.told last' (some now) last = some closed := h
    rw [Function.update_apply] at h
    split at h
    · cases h
      exact le_rfl
    · exact (hs _ _ h).trans hnow
  · exact (hs _ _ h).trans hnow

/-- The invariant of a run whose edges are covered. The last two fields are
what the write relies on: whether the pass sent the gap or found it reported,
the report is no older than the edge the pass read. -/
structure Watched (p : LedgerPoller) (s : Clocked) : Prop where
  keeping : s.poller.Keeping (fun _ _ _ => True) p.TellsGaps
  stored : Unwritten s.poller.log → ∀ stored, storedOf s.poller.log = some stored → s.poller.cursor = stored
  edge : ∀ health, healthOf s.poller.log = some health → health.oldestLedger ≤ s.now
  closed : ∀ last closed, s.told last = some closed → closed ≤ s.now
  field : ∀ last, s.poller.gapReportedAt = some last → ∃ closed, s.told last = some closed
  sent : ∀ last oldest, ⟨.send (.gap p.pool last oldest), true⟩ ∈ s.poller.log →
    ∃ health closed, healthOf s.poller.log = some health ∧ s.told last = some closed ∧
      health.oldestLedger ≤ closed
  found : ∀ last, ⟨.gapReportedAt, some last⟩ ∈ s.poller.log →
    ∃ health stored closed, healthOf s.poller.log = some health ∧ storedOf s.poller.log = some stored ∧
      s.told last = some closed ∧
      ∀ cursor, stored = some cursor → cursor.ledger = last → health.oldestLedger ≤ closed + 1

/-- A step that answers no call: the record is dropped or stays. -/
theorem Watched.idle {poller : PollerState} (h : s.Watched p) (hnow : s.now ≤ now)
    (hkeeping : poller.Keeping (fun _ _ _ => True) p.TellsGaps) (hcursor : poller.cursor = s.poller.cursor)
    (hfield : ∀ last, poller.gapReportedAt = some last → s.poller.gapReportedAt = some last)
    (hlog : poller.log = [] ∨ poller.log = s.poller.log) :
    Watched p { s with poller, now } := by
  have hclosed := fun last closed h' => (h.closed last closed h').trans hnow
  have hreported := fun last h' => h.field last (hfield last h')
  rcases hlog with hlog | hlog
  · refine ⟨hkeeping, ?_, ?_, hclosed, hreported, ?_, ?_⟩ <;> simp [hlog, storedOf, healthOf]
  · refine ⟨hkeeping, ?_, ?_, hclosed, hreported, ?_, ?_⟩
    · rw [hlog, hcursor]
      exact h.stored
    · rw [hlog]
      exact fun health h' => (h.edge health h').trans hnow
    · rw [hlog]
      exact h.sent
    · rw [hlog]
      exact h.found

theorem effect_gapReportedAt {poller : PollerState} {w : PollWorld} {o : PollOp} {last : Nat}
    (h : (poller.effect w o).gapReportedAt = some last) :
    poller.gapReportedAt = some last ∨ o = .setGapReportedAt last := by
  unfold PollerState.effect at h
  split at h
  · cases h
    exact .inr rfl
  · split at h <;> exact .inl h
  · exact .inl h

theorem effect_cursor {poller : PollerState} {w : PollWorld} {o : PollOp} (h : NoWrite o) :
    (poller.effect w o).cursor = poller.cursor := by
  unfold PollerState.effect
  split
  · rfl
  · exact h.elim
  · rfl

theorem answer_cursor {poller : PollerState} {w : PollWorld} {o : PollOp} {stored : Option Cursor}
    (h : (⟨o, w.answer poller o⟩ : PollEntry) = ⟨.cursor, .ok stored⟩) : poller.cursor = stored := by
  cases o with
  | cursor =>
    have h' : w.cursor.map (fun _ => poller.cursor) = .ok stored := by simpa [PollWorld.answer] using h
    cases hw : w.cursor with
    | ok _ =>
      rw [hw] at h'
      exact Except.ok.inj h'
    | error _ =>
      rw [hw] at h'
      cases h'
  | _ => simp at h

theorem answer_gapReportedAt {poller : PollerState} {w : PollWorld} {o : PollOp} {reported : Option Nat}
    (h : (⟨o, w.answer poller o⟩ : PollEntry) = ⟨.gapReportedAt, reported⟩) :
    poller.gapReportedAt = reported := by
  cases o with
  | gapReportedAt => simpa [PollWorld.answer] using h
  | _ => simp at h

/-- A step that answers a call. -/
theorem Watched.answers {w : PollWorld} {o : PollOp} {next : o.Answer → Pass (Option LedgerTick)}
    (h : s.Watched p) (hpass : s.poller.pass = .op o next) (hfwd : s.Forward ⟨now, .answer w⟩)
    (hcov : s.EdgeCovered ⟨now, .answer w⟩) : (s.step p ⟨now, .answer w⟩).Watched p := by
  have htaken : s.poller.taken (.answer w) = some ⟨o, w.answer s.poller o⟩ := by
    simp only [PollerState.taken, hpass]
  have hanswered : s.poller.step p (.answer w) =
      { s.poller.effect w o with
        log := s.poller.log ++ [⟨o, w.answer s.poller o⟩], pass := next (w.answer s.poller o) } := by
    simp only [PollerState.step, PollerState.answered, hpass]
  have hkeeping := h.keeping
  unfold PollerState.Keeping at hkeeping
  rw [hpass] at hkeeping
  obtain ⟨hop, hnext⟩ := hkeeping
  unfold Forward at hfwd
  unfold EdgeCovered at hcov
  unfold step
  simp only [htaken] at hfwd hcov ⊢
  rw [hanswered]
  obtain ⟨hnow, hfwd⟩ := hfwd
  have hold : ∀ {health}, healthOf s.poller.log = some health →
      healthOf (s.poller.log ++ [⟨o, w.answer s.poller o⟩]) = some health :=
    fun h => findSome_extends h (List.prefix_append _ _)
  refine ⟨hnext _ trivial, ?_, ?_, ?_, ?_, ?_, ?_⟩
  · intro hw stored hst
    have ho : NoWrite o := hw ⟨o, w.answer s.poller o⟩ (List.mem_append_right _ (List.mem_singleton_self _))
    show (s.poller.effect w o).cursor = stored
    rw [effect_cursor ho]
    rcases storedOf_concat hst with hst | heq
    · exact h.stored (fun e he => hw e (List.mem_append_left _ he)) stored hst
    · exact answer_cursor heq
  · intro health hh
    rcases healthOf_concat hh with hh | heq
    · exact (h.edge health hh).trans hnow
    · rw [heq] at hfwd
      exact hfwd.2
  · exact fun last closed ht => observe_closed h.closed hnow ht
  · intro last hf
    rcases effect_gapReportedAt hf with hf | rfl
    · obtain ⟨closed, ht⟩ := h.field last hf
      obtain ⟨later, ht, -⟩ := observe_told ht ((h.closed _ _ ht).trans hnow)
      exact ⟨later, ht⟩
    · obtain ⟨oldest, hmem⟩ := hop
      obtain ⟨-, closed, -, ht, -⟩ := h.sent last oldest hmem
      obtain ⟨later, ht, -⟩ := observe_told ht ((h.closed _ _ ht).trans hnow)
      exact ⟨later, ht⟩
  · intro last oldest hmem
    rcases List.mem_append.1 hmem with hmem | hmem
    · obtain ⟨health, closed, hh, ht, hle⟩ := h.sent last oldest hmem
      obtain ⟨later, ht, hlater⟩ := observe_told ht ((h.closed _ _ ht).trans hnow)
      exact ⟨health, later, hold hh, ht, hle.trans hlater⟩
    · rw [List.mem_singleton] at hmem
      obtain ⟨health, hh⟩ : ∃ health, healthOf s.poller.log = some health := by
        have ho : o = .send (.gap p.pool last oldest) := (congrArg Sigma.fst hmem).symm
        subst ho
        obtain ⟨health, head, stored, hopen⟩ := hop
        exact ⟨health, healthOf_opening hopen⟩
      refine ⟨health, now, hold hh, ?_, (h.edge health hh).trans hnow⟩
      rw [← hmem]
      exact Function.update_self ..
  · intro last hmem
    rcases List.mem_append.1 hmem with hmem | hmem
    · obtain ⟨health, stored, closed, hh, hst, ht, hle⟩ := h.found last hmem
      obtain ⟨later, ht, hlater⟩ := observe_told ht ((h.closed _ _ ht).trans hnow)
      refine ⟨health, stored, later, hold hh, findSome_extends hst (List.prefix_append _ _), ht, ?_⟩
      exact fun cursor hc hl => (hle cursor hc hl).trans (Nat.succ_le_succ hlater)
    · rw [List.mem_singleton] at hmem
      obtain ⟨health, stored, hh, hst⟩ : ∃ health stored, healthOf s.poller.log = some health ∧
          storedOf s.poller.log = some stored := by
        have ho : o = .gapReportedAt := (congrArg Sigma.fst hmem).symm
        subst ho
        obtain ⟨health, head, stored, hopen⟩ := hop
        exact ⟨health, stored, healthOf_opening hopen, storedOf_opening hopen⟩
      obtain ⟨closed, ht⟩ := h.field last (answer_gapReportedAt hmem.symm)
      rw [← hmem] at hcov ⊢
      refine ⟨health, stored, closed, findSome_extends hh (List.prefix_append _ _),
        findSome_extends hst (List.prefix_append _ _), ht, ?_⟩
      intro cursor hc hl
      exact hcov cursor health closed (hc ▸ hst) hl hh ht

theorem Watched.step {l : ClockLabel} (h : s.Watched p) (hfwd : s.Forward l) (hcov : s.EdgeCovered l) :
    (s.step p l).Watched p := by
  obtain ⟨now, label⟩ := l
  have hnow : s.now ≤ now := hfwd.1
  cases label with
  | begin =>
    obtain ⟨hcursor, hfield, hlog⟩ := @PollerState.begun_frame p s.poller
    exact h.idle hnow (PollerState.keeping_begun h.keeping pollOnce_tellsGaps) hcursor
      (fun _ hf => hfield ▸ hf) hlog
  | answer w =>
    cases hpass : s.poller.pass with
    | op o next => exact h.answers hpass hfwd hcov
    | ret _ | fail _ =>
      have hsame : s.poller.step p (.answer w) = s.poller := by
        simp only [PollerState.step, PollerState.answered, hpass]
      have htaken : s.poller.taken (.answer w) = none := by simp only [PollerState.taken, hpass]
      unfold Clocked.step
      simp only [hsame, htaken]
      exact h.idle hnow h.keeping rfl (fun _ => id) (.inr rfl)
  | abandon => exact h.idle hnow trivial rfl (fun _ => id) (.inr rfl)
  | restart => exact h.idle hnow trivial rfl (fun _ hf => by cases hf) (.inr rfl)

/-- At a write, the gap the pass found is covered by the report it relies on. -/
theorem Watched.announced {written : Cursor} {next : Except StoreError Unit → Pass (Option LedgerTick)}
    (h : s.Watched p) (hpass : s.poller.pass = .op (.setCursor written) next) : s.Announced := by
  have hkeeping := h.keeping
  unfold PollerState.Keeping at hkeeping
  rw [hpass] at hkeeping
  obtain ⟨⟨hw, health, head, stored, hopen, htold⟩, -⟩ := hkeeping
  intro cursor start hcursor hstart hskip
  have hstored : s.poller.cursor = stored := h.stored hw stored (storedOf_opening hopen)
  rw [hcursor] at hstored
  rw [passStart_opening hopen, ← hstored] at hstart
  cases hstart
  have hafter : LedgerPoller.startAfter head (some cursor) ≤ cursor.ledger + 1 := min_le_left _ _
  have hrange : rangeStart health head (some cursor) =
      max (LedgerPoller.startAfter head (some cursor)) health.oldestLedger := rfl
  have hstale : LedgerPoller.startAfter head (some cursor) < health.oldestLedger := by omega
  have hedge : rangeStart health head (some cursor) = health.oldestLedger := by omega
  rw [hedge]
  rcases htold cursor hstored.symm (hstored ▸ hstale) with hfound | hsent
  · obtain ⟨health', stored', closed, hh, hst, ht, hle⟩ := h.found _ hfound
    rw [healthOf_opening hopen] at hh
    cases hh
    rw [storedOf_opening hopen] at hst
    cases hst
    exact ⟨closed, ht, hle cursor hstored.symm rfl⟩
  · obtain ⟨health', closed, hh, ht, hle⟩ := h.sent _ _ hsent
    rw [healthOf_opening hopen] at hh
    cases hh
    exact ⟨closed, ht, hle.trans (Nat.le_succ _)⟩

/-- **Every skipped ledger is announced.** In every run of passes, whatever the
failures, stalls, refused acknowledgements and restarts, in which each pass
that finds its cursor reported read an edge the report covers: wherever a
cursor is about to be written, the ledgers it passes over unread had closed
when the latest `Gap` for the stored cursor was sent. -/
theorem gaps_announced (p : LedgerPoller) (cursor : Option Cursor) (s : Clocked)
    (hrun : Reaches (Clocked.step p) (fun s l => s.Forward l ∧ s.EdgeCovered l) { poller := { cursor } } s)
    (written : Cursor) (next : Except StoreError Unit → Pass (Option LedgerTick))
    (hpass : s.poller.pass = .op (.setCursor written) next) : s.Announced := by
  refine Watched.announced (hrun.always (I := Watched p) ?_ fun h hl => h.step hl.1 hl.2) hpass
  refine ⟨trivial, ?_, ?_, ?_, ?_, ?_, ?_⟩ <;> simp [storedOf, healthOf]

end Clocked

/-! ## Two runs of one stale cursor -/

/-- Ledger 30: the cursor, at 10, fell out of a window that begins at 20, and
`getEvents` fails. -/
def outageWorld : PollWorld where
  health := .ok { oldestLedger := 20 }
  latestLedger := .ok { sequence := 30, closeTime := 0 }

/-- The RPC is back at ledger `head`, its window beginning at `oldest`. -/
def recoveredWorld (oldest head : Nat) : PollWorld where
  health := .ok { oldestLedger := oldest }
  latestLedger := .ok { sequence := head, closeTime := 0 }
  events := .ok { latestLedger := head, cursor := none, events := [] }
  acked := true

/-- A pass that reports the gap and fails, and one that finds it reported and
gets to its write, at ledger `head`. -/
def outage (oldest head : Nat) : List ClockLabel :=
  ⟨30, .begin⟩ :: List.replicate 7 ⟨30, .answer outageWorld⟩ ++
    ⟨head, .begin⟩ :: List.replicate 7 ⟨head, .answer (recoveredWorld oldest head)⟩

def staleStart : Clocked := { poller := { cursor := some { ledger := 10 } } }

def afterOutage (oldest head : Nat) : Clocked :=
  (outage oldest head).foldl (Clocked.step ⟨"pool", 200⟩) staleStart

/-- The window moved on by one ledger only: the first report covers the write. -/
theorem gaps_announced_afterOutage : (afterOutage 21 31).Announced := by
  have hreach : Reaches (Clocked.step ⟨"pool", 200⟩) (fun s l => s.Forward l ∧ s.EdgeCovered l) staleStart
      (afterOutage 21 31) := by
    have hnow : ∀ {m n : Nat}, Nat.ble m n = true → m ≤ n := Nat.le_of_ble_eq_true
    refine Reaches.refl.run ⟨⟨⟨hnow rfl, trivial⟩, trivial⟩, ⟨⟨hnow rfl, hnow rfl, hnow rfl⟩, trivial⟩,
      ⟨⟨hnow rfl, hnow rfl, hnow rfl⟩, trivial⟩, ⟨⟨hnow rfl, trivial⟩, trivial⟩,
      ⟨⟨hnow rfl, trivial⟩, trivial⟩, ⟨⟨hnow rfl, trivial⟩, trivial⟩, ⟨⟨hnow rfl, trivial⟩, trivial⟩,
      ⟨⟨hnow rfl, trivial⟩, trivial⟩, ⟨⟨hnow rfl, trivial⟩, trivial⟩,
      ⟨⟨hnow rfl, hnow rfl, hnow rfl⟩, trivial⟩, ⟨⟨hnow rfl, hnow rfl, hnow rfl⟩, trivial⟩,
      ⟨⟨hnow rfl, trivial⟩, trivial⟩, ⟨⟨hnow rfl, trivial⟩, ?_⟩, ⟨⟨hnow rfl, trivial⟩, trivial⟩,
      ⟨⟨hnow rfl, trivial⟩, trivial⟩, ⟨⟨hnow rfl, trivial⟩, trivial⟩, trivial⟩
    intro cursor health closed _ _ hh ht
    have hh' : some (Health.mk 21) = some health := hh
    have ht' : some 30 = some closed := ht
    cases hh'
    cases ht'
    decide
  exact Clocked.gaps_announced ⟨"pool", 200⟩ _ _ hreach _ _ rfl

/-- The window moved on by more than the report covers: ledgers 31 to 149 are
passed over, and the only `Gap` was sent when ledger 30 was the last. -/
theorem gap_unannounced :
    ¬∀ (p : LedgerPoller) (cursor : Option Cursor) (s : Clocked),
      Reaches (Clocked.step p) Clocked.Forward { poller := { cursor } } s →
      ∀ (written : Cursor) (next : Except StoreError Unit → Pass (Option LedgerTick)),
        s.poller.pass = .op (.setCursor written) next → s.Announced := by
  intro hall
  have hreach : Reaches (Clocked.step ⟨"pool", 200⟩) Clocked.Forward staleStart (afterOutage 150 200) := by
    have hnow : ∀ {m n : Nat}, Nat.ble m n = true → m ≤ n := Nat.le_of_ble_eq_true
    exact Reaches.refl.run ⟨⟨hnow rfl, trivial⟩, ⟨hnow rfl, hnow rfl, hnow rfl⟩,
      ⟨hnow rfl, hnow rfl, hnow rfl⟩, ⟨hnow rfl, trivial⟩, ⟨hnow rfl, trivial⟩, ⟨hnow rfl, trivial⟩,
      ⟨hnow rfl, trivial⟩, ⟨hnow rfl, trivial⟩, ⟨hnow rfl, trivial⟩, ⟨hnow rfl, hnow rfl, hnow rfl⟩,
      ⟨hnow rfl, hnow rfl, hnow rfl⟩, ⟨hnow rfl, trivial⟩, ⟨hnow rfl, trivial⟩, ⟨hnow rfl, trivial⟩,
      ⟨hnow rfl, trivial⟩, ⟨hnow rfl, trivial⟩, trivial⟩
  obtain ⟨closed, htold, hle⟩ := hall _ _ _ hreach _ _ rfl { ledger := 10 } 150 rfl rfl (by decide)
  have htold' : (afterOutage 150 200).told 10 = some 30 := rfl
  rw [htold'] at htold
  cases htold
  omega

end BlendLiquidator
