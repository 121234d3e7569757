/-
A cursor is written only over a ledger that was applied in full.

Each pool's messages pass through the channel in the order of its passes, and
a pass's tick is the last of its messages: so what the tracker handled, with
what is still queued, is what the pool's passes sent (`Flowing`). By the time a
pass writes its cursor its tick was answered, so that all its events were
handled before that tick, none of them failed, and the accounts of every
applied event were served (`Accounted`).
-/
import BlendLiquidator.LedgerFacts
import BlendLiquidator.LoopFacts

namespace BlendLiquidator

open Calls Oracle

/-! ## What flows -/

/-- A message of a pool that its passes count on. -/
inductive Item
  | event (ledger : Nat) (event : PoolEvent)
  | tick (tick : LedgerTick)

def Item.IsTick : Item → Prop
  | .tick _ => True
  | .event _ _ => False

/-- The item of `pool` that was handled, with its pass. -/
def Did.item (pool : String) : Did → Option (Nat × Item)
  | .event p pass ledger e _ => if p = pool then some (pass, .event ledger e) else none
  | .tick p pass t _ _ => if p = pool then some (pass, .tick t) else none
  | _ => none

/-- The item of `pool` a message sent in `pass` is. -/
def PollerMessage.item (pool : String) (pass : Nat) : PollerMessage → Option (Nat × Item)
  | .event p ledger e => if p = pool then some (pass, .event ledger e) else none
  | .tick p t ack => if p = pool then some (ack, .tick t) else none
  | .gap _ _ _ => none

/-- What the tracker handled of `pool`. -/
def handledItems (pool : String) (acts : List Did) : List (Nat × Item) := acts.filterMap (Did.item pool)

/-- What waits in the channel of `pool`. -/
def queuedItems (pool : String) (channel : List (Nat × PollerMessage)) : List (Nat × Item) :=
  channel.filterMap fun entry => entry.2.item pool entry.1

/-- What the pass numbered `pass` sent, by its calls. -/
def sentItems (pool : String) (pass : Nat) (l : List PollEntry) : List (Nat × Item) := l.filterMap fun
  | ⟨.send message, true⟩ => message.item pool pass
  | _ => none

section Items

variable {env : Nat → Reading} {c : Service} {pool : String} {acts : List Did} {act : Did}

theorem handledItems_concat (hact : act.item pool = none) :
    handledItems pool (acts ++ [act]) = handledItems pool acts := by
  unfold handledItems
  rw [List.filterMap_append]
  simp [hact]

/-- What was handled of each pool is `base`. -/
def Handled (base : String → List (Nat × Item)) (s : TrackerState) : Prop :=
  ∀ q, handledItems q s.acts = base q

variable {base : String → List (Nat × Item)}

theorem Handled.scanning {tick : LedgerTick} : Scanning pool tick (Handled base) where
  toFramed := Steady.framed {
    store := fun _ _ h => h
    act := fun s act hinner h q => by
      refine (handledItems_concat ?_).trans (h q)
      cases act with
      | event | tick | gap => exact hinner.elim
      | read | row | refreshed | flagged | stopped | seeded => rfl }
  reseeded _ h := h
  scanned _ _ h := h

/-- A message adds its item, and no other. -/
def Handled.More (base : String → List (Nat × Item)) (pass : Nat) (message : PollerMessage)
    (r : Res TrackerError Unit) (s : TrackerState) : Prop :=
  r ≠ .running ∧ ∀ q, handledItems q s.acts = base q ++ (message.item q pass).toList

theorem Handled.did {s : TrackerState} {pass : Nat} {message : PollerMessage} (h : Handled base s)
    (hact : ∀ q, act.item q = message.item q pass) (q : String) :
    handledItems q (s.acts ++ [act]) = base q ++ (message.item q pass).toList := by
  unfold handledItems
  rw [List.filterMap_append]
  refine congrArg₂ _ (h q) ?_
  rw [← hact q]
  cases hitem : act.item q with
  | none => simp [hitem]
  | some item => simp [hitem]

theorem handleMessage_items {pass : Nat} {message : PollerMessage} :
    Triple env (Handled base) (c.handleMessage pass message) (Handled.More base pass message) := by
  cases message with
  | event pool ledger event =>
    have happly : Stays env (Handled base) (Tracker.apply pool ledger event) := apply_stays fun _ _ _ h => h
    refine Triple.bind_caught happly (fun _ => ?_) (fun error => ?_) fun s hs => absurd rfl hs.1
    · exact fun _ _ hs => ⟨nofun, Handled.did hs.2 fun _ => rfl⟩
    · exact fun _ _ hs => ⟨nofun, Handled.did hs.2 fun _ => rfl⟩
  | tick pool tick ack =>
    refine Triple.bind_read fun accounts => Triple.bind_read fun unapplied => ?_
    have htaken : ∀ s, (Handled base s ∧ (s.loop.pending.getD pool ∅).toList = accounts) ∧
        decide (pool ∈ s.loop.unapplied) = unapplied → Handled base (taken pool s) := fun s hs => hs.1.1
    refine Triple.bind_modify htaken ?_
    refine Triple.bind_caught (applyTick_stays Handled.scanning.looping) (fun _ => ?_) (fun error => ?_) fun s hs =>
      absurd rfl hs.1
    · rintro t s ⟨-, hs⟩
      cases unapplied with
      | true => exact ⟨nofun, Handled.did hs fun _ => rfl⟩
      | false =>
        refine ⟨nofun, fun q => ?_⟩
        have hdid : ∀ answered, handledItems q (s.acts ++ [.tick pool ack tick true answered]) =
            base q ++ ((PollerMessage.tick pool tick ack).item q pass).toList := fun _ =>
          Handled.did hs (fun _ => rfl) q
        refine Eq.trans ?_ (hdid true)
        show handledItems q (if _ then _ else _ : TrackerState).acts = _
        split <;> rfl
    · exact fun _ _ hs => ⟨nofun, Handled.did hs.2 fun _ => rfl⟩
  | gap pool _ _ =>
    have hgap : Stays env (Handled base) (c.handleGap pool) := by
      refine (did_stays fun _ hs q => (handledItems_concat rfl).trans (hs q)).bind fun _ => ?_
      refine (setLoop_stays fun _ hs => hs).bind fun _ => ?_
      exact Stays.ask.bind fun answer => Stays.lift.bind fun head => reseed_stays Handled.scanning
    exact hgap.conseq (fun _ => id) fun _ _ hs => ⟨hs.1, fun q => by simp [hs.2 q, PollerMessage.item]⟩

end Items

/-! ## What a pass sends -/

/-- A call before a pass's tick: whatever it sends is of its own pool and no
tick. -/
def LedgerPoller.Leads (p : LedgerPoller) : PollOp → Prop
  | .send (.event pool _ _) | .send (.gap pool _ _) => pool = p.pool
  | .send (.tick _ _ _) | .setCursor _ => False
  | _ => True

/-- What a pass keeps to: it sends of its own pool and nothing after its tick,
its tick names its own acknowledgement, and by the time it writes the cursor
the last it sent is its tick, and that was acknowledged. -/
def LedgerPoller.Disciplined (p : LedgerPoller) (pass : Nat) (l : List PollEntry) : PollOp → Prop
  | .send (.tick pool _ ack) => pool = p.pool ∧ ack = pass ∧ ∀ e ∈ l, p.Leads e.1
  | .send message => message.pool = p.pool ∧ ∀ e ∈ l, p.Leads e.1
  | .setCursor cursor => ∃ lead head, l = lead ++ [⟨.send (p.tick pass head), true⟩, ⟨.awaitAck, true⟩] ∧
      (∀ e ∈ lead, p.Leads e.1) ∧ cursor = { ledger := head.sequence }
  | _ => True

section Pass

variable {p : LedgerPoller} {pass : Nat}

theorem LedgerPoller.Leads.disciplined {l : List PollEntry} {o : PollOp} (h : p.Leads o)
    (hl : ∀ e ∈ l, p.Leads e.1) : p.Disciplined pass l o := by
  cases o with
  | send message =>
    cases message with
    | event | gap => exact ⟨h, hl⟩
    | tick => exact h.elim
  | setCursor => exact h.elim
  | health | latestLedger | cursor | gapReportedAt | events | setGapReportedAt | undecodable | awaitAck => trivial

/-- Every answer is admitted. -/
abbrev anyAnswer : List PollEntry → (o : PollOp) → o.Answer → Prop := fun _ _ _ => True

theorem pollOnce_disciplined :
    Keeps anyAnswer (p.Disciplined pass) (fun _ _ => True) [] (p.pollOnce pass) := by
  have hleads : ∀ (l : List PollEntry) (o : PollOp), (∀ e ∈ l, p.Leads e.1) ∧ p.Leads o →
      p.Disciplined pass l o := fun _ _ h => h.2.disciplined h.1
  refine Keeps.opening (fun _ => trivial) (fun _ => trivial) (fun _ => trivial) (fun _ _ => trivial)
    fun health head stored => ?_
  have hopening : ∀ e ∈ opening health head stored, p.Leads e.1 := by
    simp [opening, LedgerPoller.Leads]
  have hstart : Keeps anyAnswer (fun _ o => p.Leads o) (fun _ _ => True) (opening health head stored)
      (p.startLedger health head stored) :=
    (startLedger_keeps trivial (fun _ _ _ _ => rfl) fun _ _ _ _ => trivial).mono (fun _ _ => id) fun _ _ _ => trivial
  refine ((hstart.throughout hopening).mono hleads fun _ _ => id).bind (fun l start hl => ?_) fun _ _ _ => trivial
  split
  · exact trivial
  have hdrain : Keeps anyAnswer (fun _ o => p.Leads o) (fun _ _ => True) l (p.drainEvents start) :=
    drainPages_keeps fun _ o ho => by
      cases o with
      | send message =>
        cases message with
        | event => exact ho
        | tick | gap => exact ho.elim
      | events | undecodable => trivial
      | health | latestLedger | cursor | gapReportedAt | setGapReportedAt | awaitAck | setCursor => exact ho.elim
  refine ((hdrain.throughout hl.1).mono hleads fun _ _ => id).bind (fun l' outcome hl' => ?_) fun _ _ _ => trivial
  split
  · exact commit_keeps ⟨rfl, rfl, hl'.1⟩ (fun _ => trivial) ⟨l', head, rfl, hl'.1, rfl⟩
  · exact trivial

/-- What leads up to a tick are events. -/
theorem sentItems_leads {pool : String} {l : List PollEntry} (h : ∀ e ∈ l, p.Leads e.1) :
    ∀ x ∈ sentItems pool pass l, ¬x.2.IsTick := by
  intro x hx
  obtain ⟨⟨o, a⟩, he, hitem⟩ := List.mem_filterMap.1 hx
  have hlead := h _ he
  cases o with
  | send message =>
    cases message with
    | event q ledger event =>
      cases a with
      | true =>
        cases (Option.ite_none_right_eq_some.1 hitem).2
        exact id
      | false => cases hitem
    | tick => exact hlead.elim
    | gap => cases a <;> cases hitem
  | health | latestLedger | cursor | gapReportedAt | events | setGapReportedAt | undecodable | awaitAck
    | setCursor => cases hitem

end Pass

/-! ## The channel -/

/-- What the tracker handled of `pool` and then what waits for it. -/
def System.flow (s : System) (pool : String) : List (Nat × Item) :=
  handledItems pool s.tracker.acts ++ queuedItems pool s.channel

/-- What flows of a pool comes in the order of its passes, a pass's tick last,
and what flows of its last pass is what that pass sent; an acknowledgement it
took is the tracker's. -/
structure Flowing (c : Service) (s : System) (pool : String) : Prop where
  disciplined : (s.pollers pool).Keeping anyAnswer
    (LedgerPoller.Disciplined ⟨pool, c.pageLimit⟩ (s.pollers pool).passes)
  sorted : (s.flow pool).Pairwise fun x y => x.1 ≤ y.1 ∧ (x.2.IsTick → x.1 < y.1)
  bounded : ∀ x ∈ s.flow pool, x.1 ≤ (s.pollers pool).passes
  sent : (s.flow pool).filter (fun x => x.1 = (s.pollers pool).passes) =
    sentItems pool (s.pollers pool).passes (s.pollers pool).log
  acked : ⟨.awaitAck, true⟩ ∈ (s.pollers pool).log →
    ackOf s.tracker.acts pool (s.pollers pool).passes = some true

section Flow

variable {c : Service} {s s' : System} {pool : String}

/-- A step that leaves a pool's poller and flow alone, and no answer out. -/
theorem Flowing.frame (h : Flowing c s pool) (hpoller : s'.pollers pool = s.pollers pool)
    (hflow : s'.flow pool = s.flow pool)
    (hack : ackOf s.tracker.acts pool (s.pollers pool).passes = some true →
      ackOf s'.tracker.acts pool (s.pollers pool).passes = some true) : Flowing c s' pool := by
  refine ⟨?_, ?_, ?_, ?_, ?_⟩
  · rw [hpoller]
    exact h.disciplined
  · rw [hflow]
    exact h.sorted
  · rw [hpoller, hflow]
    exact h.bounded
  · rw [hpoller, hflow]
    exact h.sent
  · rw [hpoller]
    exact fun hmem => hack (h.acked hmem)

theorem ackOf_extends {acts acts' : List Did} {pass : Nat} {answered : Bool} (hl : acts <+: acts')
    (h : ackOf acts pool pass = some answered) : ackOf acts' pool pass = some answered :=
  findSome_extends h hl

theorem Flowing.begin (h : Flowing c s pool) :
    Flowing c (s.setPoller pool ((s.pollers pool).begun ⟨pool, c.pageLimit⟩)) pool := by
  have hpoller : (s.setPoller pool ((s.pollers pool).begun ⟨pool, c.pageLimit⟩)).pollers pool =
      (s.pollers pool).begun ⟨pool, c.pageLimit⟩ := Function.update_self ..
  have hnew : (s.pollers pool).begun ⟨pool, c.pageLimit⟩ = s.pollers pool ∨
      (s.pollers pool).begun ⟨pool, c.pageLimit⟩ = { s.pollers pool with
        passes := (s.pollers pool).passes + 1
        log := []
        pass := LedgerPoller.pollOnce ⟨pool, c.pageLimit⟩ ((s.pollers pool).passes + 1) } := by
    unfold PollerState.begun
    split
    · exact .inl rfl
    · exact .inr rfl
    · exact .inr rfl
  rcases hnew with hnew | hnew
  · exact h.frame (hpoller.trans hnew) rfl id
  · rw [hnew] at hpoller
    refine ⟨?_, h.sorted, fun x hx => ?_, ?_, ?_⟩
    · rw [hnew, hpoller]
      exact pollOnce_disciplined
    · rw [hnew, hpoller]
      exact (h.bounded x hx).trans (Nat.le_succ _)
    · rw [hnew, hpoller]
      show (s.flow pool).filter _ = []
      rw [List.filter_eq_nil_iff]
      intro x hx
      have := h.bounded x hx
      simp only [decide_eq_true_eq]
      omega
    · rw [hnew, hpoller]
      exact fun hmem => by cases hmem

theorem Flowing.abandon (h : Flowing c s pool) :
    Flowing c (s.setPoller pool { s.pollers pool with pass := .ret none }) pool := by
  have hpoller : (s.setPoller pool { s.pollers pool with pass := .ret none }).pollers pool =
      { s.pollers pool with pass := .ret none } := Function.update_self ..
  refine ⟨?_, h.sorted, ?_, ?_, ?_⟩
  · rw [hpoller]
    trivial
  · rw [hpoller]
    exact h.bounded
  · rw [hpoller]
    exact h.sent
  · rw [hpoller]
    exact h.acked

theorem item_of_ne {message : PollerMessage} {pass : Nat} (h : message.pool ≠ pool) :
    message.item pool pass = none := by
  cases message with
  | event | tick => exact if_neg h
  | gap => rfl

theorem flow_append {entries : List (Nat × PollerMessage)} {poller : String → PollerState} :
    ({ s with pollers := poller, channel := s.channel ++ entries } : System).flow pool =
      s.flow pool ++ queuedItems pool entries := by
  unfold System.flow queuedItems
  rw [List.filterMap_append, List.append_assoc]

/-- What a pass sends of its own pool carries its own number. -/
theorem item_disciplined {p : LedgerPoller} {pass : Nat} {l : List PollEntry} {message : PollerMessage} {x : Nat × Item}
    (h : p.Disciplined pass l (.send message)) (hx : message.item pool pass = some x) : x.1 = pass := by
  cases message with
  | event =>
    cases (Option.ite_none_right_eq_some.1 hx).2
    rfl
  | tick =>
    cases (Option.ite_none_right_eq_some.1 hx).2
    exact h.2.1
  | gap => cases hx

theorem LedgerPoller.Disciplined.ownPool {p : LedgerPoller} {pass : Nat} {l : List PollEntry}
    {message : PollerMessage} (h : p.Disciplined pass l (.send message)) : message.pool = p.pool := by
  cases message with
  | event | gap => exact h.1
  | tick => exact h.1

/-- A pass that sends has sent no tick yet. -/
theorem LedgerPoller.Disciplined.leads {p : LedgerPoller} {pass : Nat} {l : List PollEntry}
    {message : PollerMessage} (h : p.Disciplined pass l (.send message)) : ∀ e ∈ l, p.Leads e.1 := by
  cases message with
  | event | gap => exact h.2
  | tick => exact h.2.2

/-- The call a pass waits for keeps to the pass's discipline. -/
theorem Flowing.call (h : Flowing c s pool) {o : PollOp} {next : o.Answer → Pass (Option LedgerTick)}
    (hpass : (s.pollers pool).pass = .op o next) :
    LedgerPoller.Disciplined ⟨pool, c.pageLimit⟩ (s.pollers pool).passes (s.pollers pool).log o := by
  have hkeeps := h.disciplined
  unfold PollerState.Keeping at hkeeps
  rw [hpass] at hkeeps
  exact hkeeps.1

/-- What a call puts into the channel is what it adds to the record: nothing,
or one item of the pass, which sent no tick yet. -/
theorem Flowing.sends {w : PollWorld} (h : Flowing c s pool) {o : PollOp}
    {next : o.Answer → Pass (Option LedgerTick)} (hpass : (s.pollers pool).pass = .op o next) :
    queuedItems pool (s.sends pool w) =
      sentItems pool (s.pollers pool).passes [⟨o, w.answer (s.pollers pool) o⟩] ∧
    (queuedItems pool (s.sends pool w) = [] ∨
      (∃ item, queuedItems pool (s.sends pool w) = [((s.pollers pool).passes, item)]) ∧
        ∀ x ∈ s.flow pool, x.2.IsTick → x.1 < (s.pollers pool).passes) := by
  have hcall := h.call hpass
  unfold System.sends
  rw [hpass]
  cases o with
  | send message =>
    show queuedItems pool (if w.sent then _ else _) = sentItems pool _ [⟨.send message, w.sent⟩] ∧ _
    cases w.sent with
    | true =>
      refine ⟨rfl, ?_⟩
      show queuedItems pool [((s.pollers pool).passes, message)] = [] ∨
        (∃ item, queuedItems pool [((s.pollers pool).passes, message)] = _) ∧ _
      cases hitem : message.item pool (s.pollers pool).passes with
      | none => exact .inl (by simp [queuedItems, hitem])
      | some x =>
        obtain ⟨n, item⟩ := x
        obtain rfl : n = _ := item_disciplined hcall hitem
        refine .inr ⟨⟨item, by simp [queuedItems, hitem]⟩, fun x hx htick => ?_⟩
        refine lt_of_le_of_ne (h.bounded x hx) fun hn => ?_
        have hsent : x ∈ sentItems pool (s.pollers pool).passes (s.pollers pool).log := by
          rw [← h.sent]
          exact List.mem_filter.2 ⟨hx, decide_eq_true hn⟩
        exact sentItems_leads hcall.leads x hsent htick
    | false => exact ⟨rfl, .inl rfl⟩
  | health | latestLedger | cursor | gapReportedAt | events | setGapReportedAt | undecodable | awaitAck
    | setCursor => exact ⟨rfl, .inl rfl⟩

/-- An acknowledgement a pass takes is what the tracker answered. -/
theorem world_acked {w w' : PollWorld} (hw : s.world pool w = some w')
    {next : Bool → Pass (Option LedgerTick)} (hpass : (s.pollers pool).pass = .op .awaitAck next)
    (hacked : w'.acked = true) : ackOf s.tracker.acts pool (s.pollers pool).passes = some true := by
  unfold System.world at hw
  rw [hpass] at hw
  dsimp only at hw
  split at hw
  · next answered hack =>
    cases hw
    obtain rfl : answered = true := hacked
    exact hack
  · split at hw
    · cases hw
      cases hacked
    · cases hw

theorem answered_passes {poller : PollerState} {w : PollWorld} : (poller.answered w).passes = poller.passes := by
  unfold PollerState.answered
  split
  · next o _ _ =>
    show (poller.effect w o).passes = poller.passes
    cases o with
    | setCursor =>
      unfold PollerState.effect
      dsimp only
      split <;> rfl
    | health | latestLedger | cursor | gapReportedAt | events | send | setGapReportedAt | undecodable | awaitAck => rfl
  · rfl
  · rfl

/-- The poller that takes an answer. -/
theorem Flowing.answer {w w' : PollWorld} (h : Flowing c s pool) (hw : s.world pool w = some w') :
    Flowing c { s.setPoller pool ((s.pollers pool).answered w') with
      channel := s.channel ++ s.sends pool w' } pool := by
  have hself : Function.update s.pollers pool ((s.pollers pool).answered w') pool = (s.pollers pool).answered w' :=
    Function.update_self ..
  cases hpass : (s.pollers pool).pass with
  | ret | fail =>
    have hsends : s.sends pool w' = [] := by
      unfold System.sends
      rw [hpass]
    have hsame : (s.pollers pool).answered w' = s.pollers pool := by
      unfold PollerState.answered
      rw [hpass]
    refine h.frame (hself.trans hsame) ?_ id
    refine flow_append.trans ?_
    rw [hsends]
    exact List.append_nil _
  | op o next =>
    obtain ⟨hitems, hone⟩ := h.sends (w := w') hpass
    have htags : ∀ x ∈ queuedItems pool (s.sends pool w'), x.1 = (s.pollers pool).passes := by
      intro x hx
      rcases hone with hone | ⟨⟨item, hone⟩, -⟩
      · rw [hone] at hx
        cases hx
      · rw [hone] at hx
        rw [List.mem_singleton.1 hx]
    have hlog : ((s.pollers pool).answered w').log =
        (s.pollers pool).log ++ [⟨o, w'.answer (s.pollers pool) o⟩] := by
      unfold PollerState.answered
      rw [hpass]
    have hpasses : ((s.pollers pool).answered w').passes = (s.pollers pool).passes := answered_passes
    refine ⟨?_, ?_, fun x hx => ?_, ?_, fun hmem => ?_⟩
    · show (Function.update s.pollers pool _ pool).Keeping _ (LedgerPoller.Disciplined _
        (Function.update s.pollers pool _ pool).passes)
      rw [hself, hpasses]
      exact PollerState.keeping_answered h.disciplined (by unfold PollerState.Admits; rw [hpass]; trivial)
    · refine flow_append ▸ List.pairwise_append.2 ⟨h.sorted, ?_, fun x hx y hy => ?_⟩
      · rcases hone with hone | ⟨⟨item, hone⟩, -⟩
        · rw [hone]
          exact List.Pairwise.nil
        · rw [hone]
          exact List.pairwise_singleton _ _
      · rcases hone with hone | ⟨-, hlast⟩
        · rw [hone] at hy
          cases hy
        · rw [htags y hy]
          exact ⟨h.bounded x hx, hlast x hx⟩
    · show x.1 ≤ (Function.update s.pollers pool _ pool).passes
      rw [hself, hpasses]
      rcases List.mem_append.1 (flow_append ▸ hx) with hx | hx
      · exact h.bounded x hx
      · exact (htags x hx).le
    · show List.filter (fun x => x.1 = (Function.update s.pollers pool _ pool).passes) _ =
        sentItems pool (Function.update s.pollers pool _ pool).passes (Function.update s.pollers pool _ pool).log
      rw [hself, hpasses, hlog]
      refine (congrArg _ flow_append).trans ?_
      rw [List.filter_append, h.sent, List.filter_eq_self.2 fun x hx => decide_eq_true (htags x hx), hitems]
      exact (List.filterMap_append ..).symm
    · have hmem : ⟨.awaitAck, true⟩ ∈ (Function.update s.pollers pool ((s.pollers pool).answered w') pool).log := hmem
      show ackOf s.tracker.acts pool (Function.update s.pollers pool ((s.pollers pool).answered w') pool).passes = _
      rw [hself, hlog] at hmem
      rw [hself, hpasses]
      rcases List.mem_append.1 hmem with hmem | hmem
      · exact h.acked hmem
      · obtain ⟨rfl, hacked⟩ := Sigma.mk.inj (List.mem_singleton.1 hmem)
        exact world_acked hw hpass (eq_of_heq hacked).symm

/-- A message of one pool does not flow to another. -/
theorem Flowing.answer_other {w : PollWorld} {poller : PollerState} {q : String} (h : Flowing c s q)
    (hpool : Flowing c s pool) (hq : q ≠ pool) :
    Flowing c { s.setPoller pool poller with channel := s.channel ++ s.sends pool w } q := by
  have hnone : queuedItems q (s.sends pool w) = [] := by
    unfold System.sends
    split
    · next message next hpass =>
      split
      · have hown : message.pool ≠ q := fun heq => hq (heq.symm.trans (hpool.call hpass).ownPool)
        simp [queuedItems, item_of_ne hown]
      · rfl
    · rfl
  refine h.frame (Function.update_of_ne hq ..) ?_ id
  refine flow_append.trans ?_
  rw [hnone, List.append_nil]

/-- Handling a message moves it from the channel to the record. -/
theorem handled_flow {env : Nat → Reading} : (s.handled c env).flow pool = s.flow pool := by
  unfold System.handled
  split
  · next pass message rest hended hchannel =>
    have hitems := (@handleMessage_items env c (fun q => handledItems q s.tracker.acts) pass message 0 s.tracker
      fun q => rfl).2 pool
    unfold System.flow
    rw [hchannel]
    dsimp only
    rw [hitems]
    unfold queuedItems
    rw [List.append_assoc, List.filterMap_cons]
    cases message.item pool pass with
    | none => rfl
    | some item => rfl
  · rfl

theorem handled_pollers {env : Nat → Reading} : (s.handled c env).pollers = s.pollers := by
  unfold System.handled
  split
  · rfl
  · rfl

theorem handled_longer {env : Nat → Reading} : s.tracker.acts <+: (s.handled c env).tracker.acts := by
  unfold System.handled
  split
  · next pass message rest hended hchannel =>
    exact (@handleMessage_longer env c pass message s.tracker.acts 0 s.tracker List.prefix_rfl).2
  · exact List.prefix_rfl

/-- One step, for whatever a message keeps. -/
theorem step_tracker {I : TrackerState → Prop} {label : SystemLabel} (h : I s.tracker)
    (hmessage : ∀ env pass message, Stays env I (c.handleMessage pass message)) :
    I (s.step c label).tracker := by
  cases label with
  | begin pool => exact h
  | answer pool w =>
    unfold System.step
    dsimp only
    split
    · exact h
    · exact h
  | abandon pool => exact h
  | handle env =>
    show I (s.handled c env).tracker
    unfold System.handled
    split
    · exact (hmessage env _ _ 0 s.tracker h).2
    · exact h

/-- Every step keeps every pool flowing. -/
theorem flowing_step {label : SystemLabel} (h : ∀ q, Flowing c s q) : ∀ q, Flowing c (s.step c label) q := by
  intro q
  cases label with
  | begin pool =>
    by_cases hq : q = pool
    · subst hq
      exact (h q).begin
    · exact (h q).frame (Function.update_of_ne hq ..) rfl id
  | answer pool w =>
    unfold System.step
    dsimp only
    split
    · next w' hw =>
      by_cases hq : q = pool
      · subst hq
        exact (h q).answer hw
      · exact (h q).answer_other (h pool) hq
    · exact h q
  | abandon pool =>
    by_cases hq : q = pool
    · subst hq
      exact (h q).abandon
    · exact (h q).frame (Function.update_of_ne hq ..) rfl id
  | handle env =>
    exact (h q).frame (congrFun handled_pollers q) handled_flow fun hack => ackOf_extends handled_longer hack

/-- Nothing flows at the start. -/
theorem flowing_start {cursors : String → Option Cursor} {store : Store} {needsReseed : BTreeSet String} :
    Flowing c (System.start cursors store needsReseed) pool :=
  ⟨trivial, List.Pairwise.nil, fun _ hx => (by cases hx), rfl, fun hmem => (by cases hmem)⟩

theorem accounted_start {cursors : String → Option Cursor} {store : Store} {needsReseed : BTreeSet String} :
    Accounted (System.start cursors store needsReseed).tracker := by
  have hnone : ∀ {before act after}, ([] : List Did) = before ++ act :: after → False := fun h => by simp at h
  refine ⟨?_, ?_, fun h => (hnone h).elim, fun h => (hnone h).elim⟩
  · rintro _ _ ⟨_, _, _, _, _, h, -⟩
    exact (hnone h).elim
  · rintro _ ⟨_, _, _, _, _, h, -⟩
    exact (hnone h).elim

/-- The run lemma. -/
theorem reaches_flowing {cursors : String → Option Cursor} {store : Store} {needsReseed : BTreeSet String}
    {ok : System → SystemLabel → Prop}
    (h : Reaches (System.step c) ok (System.start cursors store needsReseed) s) :
    Accounted s.tracker ∧ ∀ q, Flowing c s q := by
  refine h.always (I := fun s => Accounted s.tracker ∧ ∀ q, Flowing c s q)
    ⟨accounted_start, fun _ => flowing_start⟩ ?_
  rintro s label ⟨haccounted, hflowing⟩ -
  exact ⟨step_tracker haccounted fun _ _ _ => handleMessage_accounted, flowing_step hflowing⟩

end Flow

/-! ## Applied in full -/

/-- The events of `pool` a pass sent. -/
def sentEvents (pool : String) (l : List PollEntry) : List (Nat × PoolEvent) := l.filterMap fun
  | ⟨.send (.event p ledger event), true⟩ => if p = pool then some (ledger, event) else none
  | _ => none

/-- The events of `pool` the tracker handled of a pass, and whether each
applied. -/
def handledEvents (pool : String) (pass : Nat) (acts : List Did) : List ((Nat × PoolEvent) × Bool) :=
  acts.filterMap fun
    | .event p n ledger event applied => if p = pool ∧ n = pass then some ((ledger, event), applied) else none
    | _ => none

/-- The pass in progress has its tick of `ledger` answered: each event it sent
was handled before that tick and applied, and each account that an applied
event of the pool named by then was re-read after it and then flagged. -/
def AppliedInFull (s : System) (pool : String) (ledger : Nat) : Prop :=
  ∃ before tick after,
    s.tracker.acts = before ++ .tick pool (s.pollers pool).passes tick true true :: after ∧
    tick.sequence = ledger ∧
    handledEvents pool (s.pollers pool).passes before =
      (sentEvents pool (s.pollers pool).log).map (·, true) ∧
    ∀ {old pass l event new account}, before = old ++ .event pool pass l event true :: new →
      account ∈ event.affectedAccounts → Serves pool account new

section Full

variable {pool : String} {pass : Nat}

def Item.event? : Nat × Item → Option (Nat × PoolEvent)
  | (_, .event ledger e) => some (ledger, e)
  | (_, .tick _) => none

theorem sentEvents_eq {l : List PollEntry} :
    sentEvents pool l = (sentItems pool pass l).filterMap Item.event? := by
  unfold sentEvents sentItems
  rw [List.filterMap_filterMap]
  refine List.filterMap_congr fun e _ => ?_
  obtain ⟨o, a⟩ := e
  cases o with
  | send message =>
    cases message with
    | event p ledger event =>
      cases a with
      | true =>
        show (if p = pool then _ else _) = Option.bind (if p = pool then _ else _) _
        split <;> rfl
      | false => rfl
    | tick p tick ack =>
      cases a with
      | true =>
        show none = Option.bind (if p = pool then _ else _) _
        split <;> rfl
      | false => rfl
    | gap => cases a <;> rfl
  | health | latestLedger | cursor | gapReportedAt | events | setGapReportedAt | undecodable | awaitAck
    | setCursor => rfl

theorem handledEvents_eq {acts : List Did} : (handledEvents pool pass acts).map Prod.fst =
    ((handledItems pool acts).filter fun x => x.1 = pass).filterMap Item.event? := by
  unfold handledEvents handledItems
  rw [List.map_filterMap, List.filter_filterMap, List.filterMap_filterMap]
  refine List.filterMap_congr fun act _ => ?_
  cases act with
  | event p n ledger event applied =>
    by_cases hp : p = pool
    · by_cases hn : n = pass
      · simp [Did.item, hp, hn, Item.event?, Option.filter_some]
      · simp [Did.item, hp, hn, Option.filter_some]
    · simp [Did.item, hp]
  | tick p n tick applied answered =>
    by_cases hp : p = pool
    · by_cases hn : n = pass
      · simp [Did.item, hp, hn, Item.event?, Option.filter_some]
      · simp [Did.item, hp, hn, Option.filter_some]
    · simp [Did.item, hp]
  | gap | read | row | refreshed | flagged | stopped | seeded => rfl

theorem exists_of_ackOf {acts : List Did} {answered : Bool} (h : ackOf acts pool pass = some answered) :
    ∃ before tick applied after, acts = before ++ .tick pool pass tick applied answered :: after := by
  obtain ⟨before, act, after, rfl, hact, -⟩ := List.findSome?_eq_some_iff.1 h
  cases act with
  | tick p n tick applied answered' =>
    obtain ⟨⟨rfl, rfl⟩, hanswered⟩ := Option.ite_none_right_eq_some.1 hact
    cases hanswered
    exact ⟨before, tick, applied, after, rfl⟩
  | event | gap | read | row | refreshed | flagged | stopped | seeded => cases hact

variable {c : Service} {s : System}

/-- At a cursor write the pass's tick was answered, and what was handled of the
pass before it is what the pass sent before it. -/
theorem Flowing.answered (h : Flowing c s pool) {cursor : Cursor}
    {next : Except StoreError Unit → Pass (Option LedgerTick)}
    (hpass : (s.pollers pool).pass = .op (.setCursor cursor) next) :
    ∃ before tick applied after,
      s.tracker.acts = before ++ .tick pool (s.pollers pool).passes tick applied true :: after ∧
      tick.sequence = cursor.ledger ∧
      (∀ x ∈ (handledItems pool before).filter fun x => x.1 = (s.pollers pool).passes, ¬x.2.IsTick) ∧
      ((handledItems pool before).filter fun x => x.1 = (s.pollers pool).passes).filterMap Item.event? =
        sentEvents pool (s.pollers pool).log := by
  obtain ⟨lead, head, hlog, hlead, rfl⟩ := h.call hpass
  obtain ⟨before, tick, applied, after, hacts⟩ := exists_of_ackOf (h.acked (by rw [hlog]; simp))
  have hsent := h.sent
  set n := (s.pollers pool).passes
  have hsentlog : sentItems pool n (s.pollers pool).log =
      sentItems pool n lead ++ [(n, .tick { sequence := head.sequence, closeTime := head.closeTime })] := by
    rw [hlog]
    unfold sentItems
    rw [List.filterMap_append]
    congr 1
    simp [LedgerPoller.tick, PollerMessage.item]
  have hhandled : handledItems pool (before ++ .tick pool n tick applied true :: after) =
      handledItems pool before ++ (n, .tick tick) :: handledItems pool after := by
    unfold handledItems
    rw [List.filterMap_append]
    congr 1
    simp [Did.item]
  -- The tick is the last of what the pass sent, so the tick handled is that one.
  have hsplit : (handledItems pool before).filter (fun x => x.1 = n) ++ (n, .tick tick) ::
      ((handledItems pool after).filter (fun x => x.1 = n) ++ (queuedItems pool s.channel).filter fun x => x.1 = n) =
      sentItems pool n lead ++ [(n, .tick { sequence := head.sequence, closeTime := head.closeTime })] := by
    rw [← hsentlog, ← hsent]
    unfold System.flow
    rw [hacts, hhandled]
    simp
  have hleads := @sentItems_leads _ n pool lead hlead
  rcases Traces.concat_eq_split.1 hsplit.symm with ⟨hbefore, htick, -⟩ | ⟨_, -, hmem⟩
  · cases htick
    refine ⟨before, _, applied, after, hacts, rfl, hbefore ▸ hleads, ?_⟩
    rw [hbefore, @sentEvents_eq pool n, hsentlog, List.filterMap_append]
    simp [Item.event?]
  · exact absurd trivial (hleads (n, .tick tick) (by rw [hmem]; simp))

/-- No event of the pass failed before the tick: a failed one would still be
lost, as no other tick of the pool came between. -/
theorem Flowing.noneFailed (h : Flowing c s pool) {before after : List Did} {tick : LedgerTick} {applied : Bool}
    (hacts : s.tracker.acts = before ++ .tick pool (s.pollers pool).passes tick applied true :: after)
    (hnotick : ∀ x ∈ (handledItems pool before).filter fun x => x.1 = (s.pollers pool).passes, ¬x.2.IsTick)
    (hlost : ¬RangeLost before pool) {ledger : Nat} {event : PoolEvent} :
    .event pool (s.pollers pool).passes ledger event false ∉ before := by
  intro hmem
  obtain ⟨old, new, rfl⟩ := List.append_of_mem hmem
  refine hlost ⟨old, _, ledger, event, new, rfl, fun act hact htick => ?_⟩
  cases act with
  | tick p n t a b =>
    obtain rfl : p = pool := htick
    -- Its pass is neither earlier nor later.
    have hitem : (n, Item.tick t) ∈ handledItems p new := List.mem_filterMap.2 ⟨_, hact, by simp [Did.item]⟩
    have hflow : s.flow p = handledItems p old ++ ((s.pollers p).passes, Item.event ledger event) ::
        (handledItems p new ++ ((s.pollers p).passes, Item.tick tick) :: (handledItems p after ++
          queuedItems p s.channel)) := by
      unfold System.flow
      rw [hacts]
      simp [handledItems, Did.item]
    have hsorted := h.sorted
    have hbounded := h.bounded (n, .tick t) (by rw [hflow]; simp [hitem])
    rw [hflow, List.pairwise_append] at hsorted
    have hle := (List.rel_of_pairwise_cons hsorted.2.1 (List.mem_append_left _ hitem)).1
    have hn : n = (s.pollers p).passes := le_antisymm hbounded hle
    refine hnotick (n, .tick t) (List.mem_filter.2 ⟨?_, by simp [hn]⟩) trivial
    unfold handledItems
    rw [List.filterMap_append]
    exact List.mem_append_right _ (List.mem_filterMap.2 ⟨_, List.mem_cons_of_mem _ hact, by simp [Did.item]⟩)
  | event | gap | read | row | refreshed | flagged | stopped | seeded => exact htick

theorem Flowing.appliedInFull (h : Flowing c s pool) (haccounted : Accounted s.tracker) {cursor : Cursor}
    {next : Except StoreError Unit → Pass (Option LedgerTick)}
    (hpass : (s.pollers pool).pass = .op (.setCursor cursor) next) : AppliedInFull s pool cursor.ledger := by
  obtain ⟨before, tick, applied, after, hacts, hledger, hnotick, hevents⟩ := h.answered hpass
  obtain ⟨rfl, hlost⟩ := haccounted.answered hacts
  refine ⟨before, tick, after, hacts, hledger, ?_, fun heq hmem => ?_⟩
  · rw [← hevents, ← handledEvents_eq, List.map_map]
    refine (List.map_id _).symm.trans (List.map_congr_left fun x hx => ?_)
    -- Whether it applied is what is left to show.
    obtain ⟨act, hact, hx⟩ := List.mem_filterMap.1 hx
    cases act with
    | event p n ledger event applied =>
      obtain ⟨⟨rfl, rfl⟩, hevent⟩ := Option.ite_none_right_eq_some.1 hx
      cases hevent
      cases applied with
      | true => rfl
      | false => exact absurd hact (h.noneFailed hacts hnotick hlost)
    | tick | gap | read | row | refreshed | flagged | stopped | seeded => cases hx
  · obtain ⟨old, new, rfl, horderly, hserves⟩ := haccounted.applied hacts
    rename_i old' pass' l event new' account
    rcases Traces.append_eq_split heq with ⟨after', rfl, rfl⟩ | ⟨before', -, rfl⟩
    · by_cases happlied : ∃ act ∈ after', act.Applies pool
      · obtain ⟨act, hact, happlies⟩ := happlied
        have hsplit : s.tracker.acts = old' ++ .event pool pass' l event true ::
            (after' ++ (new ++ .tick pool (s.pollers pool).passes tick true true :: after)) := by
          rw [hacts]
          simp
        exact (haccounted.served hsplit hmem hact happlies).append_right
      · have howed : Owed (old' ++ .event pool pass' l event true :: after') pool account :=
          ⟨old', pass', l, event, after', rfl, hmem, fun act hact happlies => happlied ⟨act, hact, happlies⟩⟩
        exact (hserves account howed).append_left
    · exact (horderly.inner (.event pool pass' l event true) (by simp)).elim

/-- **An acknowledged tick was applied in full.** In every run of any number of
pools' pollers and the tracker loop, whatever fails and wherever a pass is
dropped: where a cursor is about to be written, the pass's events were all
applied and what the pool's applied events named was served; a tick that was
answered had applied, with no event lost before it, and what is owed is
waiting; and a message that fails loses nothing that waits, and leaves every
other pool alone. -/
theorem acknowledged_applied_in_full (c : Service) (cursors : String → Option Cursor) (store : Store)
    (needsReseed : BTreeSet String) (s : System)
    (hrun : Reaches (System.step c) (fun _ _ => True) (System.start cursors store needsReseed) s) :
    (∀ pool cursor next, (s.pollers pool).pass = .op (.setCursor cursor) next →
      AppliedInFull s pool cursor.ledger) ∧
    (∀ before pool pass tick applied after,
      s.tracker.acts = before ++ .tick pool pass tick applied true :: after →
        applied = true ∧ ¬RangeLost before pool) ∧
    (∀ pool account, Owed s.tracker.acts pool account → account ∈ s.tracker.loop.pending.getD pool ∅) ∧
    ∀ pass message rest, s.channel = (pass, message) :: rest → ∀ env,
      (∀ error, (c.handleMessage pass message env 0 s.tracker).1 = .err error →
        Waiting s.tracker (c.handleMessage pass message env 0 s.tracker).2.2) ∧
      Elsewhere message.pool s.tracker (c.handleMessage pass message env 0 s.tracker).2.2 := by
  obtain ⟨haccounted, hflowing⟩ := reaches_flowing hrun
  refine ⟨fun pool cursor next hpass => ?_, fun before pool pass tick applied after hacts => ?_,
    fun pool account howed => ?_, fun pass message rest _ env => ⟨?_, ?_⟩⟩
  · exact (hflowing pool).appliedInFull haccounted hpass
  · exact haccounted.answered hacts
  · exact (haccounted.pending howed).resolve_right id
  · exact handleMessage_waiting 0 s.tracker rfl
  · exact (handleMessage_elsewhere 0 s.tracker ⟨fun _ _ => rfl, fun _ _ => Iff.rfl, fun _ _ _ => rfl⟩).2

end Full

/-! ## One pass -/

/-- A snapshot, at `ledger`, of a pool in which nobody owes anything. -/
def quietSnapshot (ledger : Nat) : PoolSnapshot where
  ledger := ledger
  bstopRate := 0
  reserves := ∅
  prices := { decimals := 7, scalar := 10 ^ 7, prices := ∅, scalar_eq := SCALAR_7_eq, prices_pos := by simp }
  positions := ∅

/-- Head is 5, where an auction of `borrower` was deleted. -/
def deletionWorld : PollWorld where
  health := .ok { oldestLedger := 1 }
  latestLedger := .ok { sequence := 5, closeTime := 0 }
  events := .ok { latestLedger := 5, cursor := none, events := [{
    ledger := 5
    id := "5-0"
    contractId := "pool"
    inSuccessfulContractCall := true
    topics := [.symbol "delete_auction", .u32 0, .address "borrower"]
    value := .void }] }

def onePool : Service where
  cadence := { userRefreshLedgers := 10, refreshBatch := 10, fullScanLedgers := 0, phase := 0 }
  seedSources := 0
  pageLimit := 200

/-- A pass up to its cursor write, a snapshot at `ledger` answering every
refresh. -/
def onePass (ledger : Nat) : List SystemLabel :=
  .begin "pool" :: List.replicate 5 (.answer "pool" deletionWorld) ++
    [.handle fun _ => { snapshot := .ok (quietSnapshot ledger) }, .answer "pool" deletionWorld,
      .handle fun _ => { snapshot := .ok (quietSnapshot ledger) }, .answer "pool" deletionWorld]

def afterPass (ledger : Nat) : System :=
  (onePass ledger).foldl (System.step onePool) (System.start (fun _ => some { ledger := 3 }) {} ∅)

theorem acknowledged_applied_in_full_onePass : AppliedInFull (afterPass 5) "pool" 5 := by
  have hrun : Reaches (System.step onePool) (fun _ _ => True)
      (System.start (fun _ => some { ledger := 3 }) {} ∅) (afterPass 5) :=
    Reaches.refl.run admitted_true
  exact (acknowledged_applied_in_full onePool _ _ _ _ hrun).1 "pool" { ledger := 5 } _ rfl

end BlendLiquidator
