/-
What a cursor write vouches for (`drain_events`, `poll_once`).

A page is trusted for one thing: it holds every matching event from where its
request starts up to where its own cursor, or else its `latestLedger`, says it
got. `drain_events` never looks at that position. It takes any short page for
the end of the range, so a node that lags the one that answered
`getLatestLedger`, or that stopped scanning early, ends the drain below head,
and the cursor is written over ledgers nothing was read from
(`cursor_skips_event`). `cursor_skips_nothing` is the rule with the missing
check as its condition.
-/
import BlendLiquidator.LedgerFacts
import Mathlib.Data.List.TakeWhile

namespace BlendLiquidator

open Calls

/-- The events the RPC's nodes hold for a query, in chain order, and how many
of them stand at or before a page cursor. -/
structure History where
  events : List Event
  ordered : events.Pairwise fun a b => a.ledger ≤ b.ledger
  position : String → Nat

namespace History

variable (h : History)

/-- How many events stand before `ledger`. -/
def before (ledger : Nat) : Nat := (h.events.takeWhile (·.ledger < ledger)).length

/-- Where a request starts. -/
def requested (query : EventQuery) : Nat := match query.cursor with
  | some cursor => h.position cursor
  | none => h.before (query.startLedger.getD 0)

/-- The position a page says it got to. -/
def reached (page : Events) : Nat := match page.cursor with
  | some cursor => h.position cursor
  | none => h.before (page.latestLedger + 1)

/-- The page holds every event of its range, in order. -/
def Holds (query : EventQuery) (page : Events) : Prop :=
  page.events = (h.events.take (h.reached page)).drop (h.requested query)

instance (query : EventQuery) (page : Events) : Decidable (h.Holds query page) :=
  inferInstanceAs (Decidable (_ = _))

theorem mem_segment {h : History} {e : Event} {low high : Nat} :
    e ∈ (h.events.take high).drop low ↔ ∃ i, low ≤ i ∧ i < high ∧ h.events[i]? = some e := by
  rw [List.mem_iff_getElem?]
  constructor
  · rintro ⟨i, hi⟩
    rw [List.getElem?_drop, List.getElem?_take] at hi
    split at hi
    · next hlt => exact ⟨low + i, by omega, hlt, hi⟩
    · cases hi
  · rintro ⟨i, hlow, hhigh, hi⟩
    refine ⟨i - low, ?_⟩
    rw [List.getElem?_drop, List.getElem?_take, Nat.add_sub_cancel' hlow, if_pos hhigh, hi]

theorem ledger_lt_of_before {h : History} {e : Event} {i ledger : Nat} (hi : h.events[i]? = some e)
    (hlt : i < h.before ledger) : e.ledger < ledger := by
  have hget := (List.takeWhile_prefix (l := h.events) (fun e => decide (e.ledger < ledger))).getElem hlt
  have hmem := List.getElem_mem hlt
  have hsat := List.mem_takeWhile_imp hmem
  rw [hget] at hsat
  rw [List.getElem?_eq_some_iff] at hi
  obtain ⟨_, hi⟩ := hi
  rw [hi] at hsat
  simpa using hsat

end History

/-! ## Delivery -/

/-- An event the poller owes its tracker something for: of its pool, of a
successful call, and not one the bot does not model. -/
def LedgerPoller.wants (p : LedgerPoller) (e : Event) : Bool :=
  e.contractId = p.pool && e.inSuccessfulContractCall &&
    match decodePoolEvent e.topics e.value with
    | .ok none => false
    | _ => true

/-- The event was sent, or logged as undecodable. -/
def LedgerPoller.Delivered (p : LedgerPoller) (l : List PollEntry) (e : Event) : Prop :=
  match decodePoolEvent e.topics e.value with
  | .ok (some decoded) => ⟨.send (.event p.pool e.ledger decoded), true⟩ ∈ l
  | .ok none => False
  | .error error => ⟨.undecodable e.ledger e.id error, ()⟩ ∈ l

/-- What a cursor write at `cursor` asserts of the pass that makes it: its
tick was acknowledged, and every wanted event from the pass's start to the
written ledger was delivered before the tick. -/
def Vouched (h : History) (p : LedgerPoller) (l : List PollEntry) (cursor : Cursor) : Prop :=
  ∃ earlier tick ack start,
    l = earlier ++ [⟨.send (.tick p.pool tick ack), true⟩, ⟨.awaitAck, true⟩] ∧
    tick.sequence = cursor.ledger ∧ passStart l = some start ∧
    ∀ e ∈ h.events, p.wants e = true → start ≤ e.ledger → e.ledger ≤ cursor.ledger → p.Delivered earlier e

/-- The answers the RPC's word covers. -/
def Truthful (h : History) : (o : PollOp) → o.Answer → Prop
  | .events query, .ok page => h.Holds query page
  | _, _ => True

/-- The check `drain_events` lacks: a short page leaves no wanted event at or
below the pass's head behind it. -/
def ShortPageReachesHead (h : History) (p : LedgerPoller) (l : List PollEntry) : (o : PollOp) → o.Answer → Prop
  | .events _, .ok page => page.events.length < p.pageLimit → ∀ head, headOf l = some head →
    ∀ e ∈ h.events.drop (h.reached page), p.wants e = true → head.sequence < e.ledger
  | _, _ => True

section Delivering

variable {h : History} {p : LedgerPoller} {l l' : List PollEntry} {e : Event}

theorem LedgerPoller.Delivered.mono (hd : p.Delivered l e) (hl : l <+: l') : p.Delivered l' e := by
  unfold Delivered at hd ⊢
  split at hd
  · exact hl.subset hd
  · exact hd
  · exact hl.subset hd

/-- The events from `low` to `high` were delivered. -/
def Covered (h : History) (p : LedgerPoller) (l : List PollEntry) (low high : Nat) : Prop :=
  ∀ i e, low ≤ i → i < high → h.events[i]? = some e → p.wants e = true → p.Delivered l e

theorem Covered.mono {low high : Nat} (hc : Covered h p l low high) (hl : l <+: l') :
    Covered h p l' low high := fun i e h1 h2 h3 h4 => (hc i e h1 h2 h3 h4).mono hl

/-- The rest of a covered range may come from a page that starts inside it. -/
theorem Covered.page {low middle high : Nat} (hc : Covered h p l low middle)
    (hpage : ∀ e ∈ (h.events.take high).drop middle, p.wants e = true → p.Delivered l e) :
    Covered h p l low high := by
  intro i e hlow hhigh hi hw
  by_cases hm : i < middle
  · exact hc i e hlow hm hi hw
  · exact hpage e (History.mem_segment.2 ⟨i, by omega, hhigh, hi⟩) hw

variable {A : List PollEntry → (o : PollOp) → o.Answer → Prop}

theorem deliver_delivers :
    Keeps A (fun _ _ => True) (fun l' r => match r with
      | .ok _ => l <+: l' ∧ (p.wants e = true → p.Delivered l' e)
      | .error _ => True) l (p.deliver e) := by
  unfold LedgerPoller.deliver
  split
  · next hskip =>
    refine ⟨List.prefix_rfl, fun hw => ?_⟩
    simp only [LedgerPoller.wants, Bool.and_eq_true, decide_eq_true_eq] at hw
    rcases hskip with hne | hfail
    · exact absurd hw.1.1 hne
    · rw [hfail] at hw
      cases hw.1.2
  · split
    · next decoded hdec =>
      refine Keeps.send trivial ⟨List.prefix_append _ _, fun _ => ?_⟩ fun _ _ => trivial
      simp [LedgerPoller.Delivered, hdec]
    · next hdec =>
      refine ⟨List.prefix_rfl, fun hw => ?_⟩
      simp [LedgerPoller.wants, hdec] at hw
    · next error hdec =>
      refine ⟨trivial, fun _ _ => ⟨List.prefix_append _ _, fun _ => ?_⟩⟩
      simp [LedgerPoller.Delivered, hdec]

theorem deliverAll_delivers {events : List Event} :
    Keeps A (fun _ _ => True) (fun l' r => match r with
      | .ok _ => l <+: l' ∧ ∀ e ∈ events, p.wants e = true → p.Delivered l' e
      | .error _ => True) l (events.forM p.deliver) := by
  refine (Keeps.forM (I := fun rest l' => l <+: l' ∧ ∃ done, events = done ++ rest ∧
    ∀ e ∈ done, p.wants e = true → p.Delivered l' e) (E := fun _ _ => True) ?_ ?_).mono (fun _ _ => id) ?_
  · rintro e rest l₁ ⟨hl, done, rfl, hdone⟩
    refine deliver_delivers.mono (fun _ _ => id) fun l₂ r hr => ?_
    cases r with
    | error _ => trivial
    | ok _ =>
      obtain ⟨hl₂, he⟩ := hr
      refine ⟨hl.trans hl₂, done ++ [e], by simp, fun e' he' hw => ?_⟩
      rcases List.mem_append.1 he' with he' | he'
      · exact (hdone e' he' hw).mono hl₂
      · rw [List.mem_singleton] at he'
        subst he'
        exact he hw
  · exact ⟨List.prefix_rfl, [], rfl, by simp⟩
  · rintro l' r hr
    cases r with
    | error _ => trivial
    | ok _ =>
      obtain ⟨hl, done, heq, hdone⟩ := hr
      rw [List.append_nil] at heq
      subst heq
      exact ⟨hl, hdone⟩

end Delivering

/-! ## The drain -/

section Drain

variable {h : History} {p : LedgerPoller} {l : List PollEntry}

/-- What the poller is told: the RPC's word, and the check. -/
def Told (h : History) (p : LedgerPoller) (l : List PollEntry) (o : PollOp) (a : o.Answer) : Prop :=
  Truthful h o a ∧ ShortPageReachesHead h p l o a

/-- Where the range read so far ends. -/
def nextPosition (h : History) (start : Nat) : Option String → Nat
  | some cursor => h.position cursor
  | none => h.before start

theorem requested_query {start : Nat} {requestCursor : Option String} :
    h.requested (p.query start requestCursor) = nextPosition h start requestCursor := by
  cases requestCursor <;> rfl

/-- A short page leaves nothing the tick would vouch for. -/
def Reached (h : History) (p : LedgerPoller) (head : LatestLedger) (page : Events) : Prop :=
  page.events.length < p.pageLimit →
    ∀ e ∈ h.events.drop (h.reached page), p.wants e = true → head.sequence < e.ledger

theorem readPage_covers {start : Nat} {requestCursor : Option String} {head : LatestLedger}
    (hhead : headOf l = some head)
    (hc : Covered h p l (h.before start) (nextPosition h start requestCursor)) :
    Keeps (Told h p) (fun _ _ => True) (fun l' r => match r with
      | .ok page => Covered h p l' (h.before start) (h.reached page) ∧ Reached h p head page
      | .error _ => True) l (p.readPage start requestCursor) := by
  have hpage : Keeps (Told h p) (fun _ _ => True) (fun l' r => match r with
      | .ok page => l <+: l' ∧ h.Holds (p.query start requestCursor) page ∧ Reached h p head page
      | .error _ => True) l (getEvents (p.query start requestCursor)) :=
    Keeps.getEvents trivial (fun page ha => ⟨List.prefix_append _ _, ha.1, fun hshort => ha.2 hshort head hhead⟩)
      fun _ _ => trivial
  refine hpage.bind (fun l₁ page hpage => ?_) fun _ _ _ => trivial
  obtain ⟨hl₁, hholds, hreached⟩ := hpage
  refine deliverAll_delivers.bind (fun l₂ _ hall => ?_) fun _ _ _ => trivial
  obtain ⟨hl₂, hall⟩ := hall
  refine ⟨(hc.mono (hl₁.trans hl₂)).page fun e he => ?_, hreached⟩
  rw [History.Holds, requested_query] at hholds
  rw [← hholds] at he
  exact hall e he

/-- Every wanted event of the range is delivered, up to head. -/
def RangeDelivered (h : History) (p : LedgerPoller) (l : List PollEntry) (start : Nat) (head : LatestLedger) : Prop :=
  ∀ e ∈ h.events, p.wants e = true → start ≤ e.ledger → e.ledger ≤ head.sequence → p.Delivered l e

theorem rangeDelivered_of_covered {start : Nat} {head : LatestLedger} {page : Events}
    (hc : Covered h p l (h.before start) (h.reached page)) (hr : Reached h p head page)
    (hshort : page.events.length < p.pageLimit) : RangeDelivered h p l start head := by
  intro e he hw hstart hhead
  obtain ⟨i, hi⟩ := List.mem_iff_getElem?.1 he
  have hlow : h.before start ≤ i := by
    by_contra hlt
    have := History.ledger_lt_of_before hi (Nat.lt_of_not_le hlt)
    omega
  have hhigh : i < h.reached page := by
    by_contra hge
    have hmem : e ∈ h.events.drop (h.reached page) := by
      rw [List.mem_iff_getElem?]
      refine ⟨i - h.reached page, ?_⟩
      rw [List.getElem?_drop, Nat.add_sub_cancel' (Nat.le_of_not_lt hge), hi]
    have := hr hshort e hmem hw
    omega
  exact hc i e hlow hhigh hi hw

/-- A drain that ends claiming the range drained delivered it. The induction
is on the pages left; each page extends the covered range to its own
position. -/
theorem drainPages_covers {start left : Nat} {requestCursor : Option String} {head : LatestLedger}
    (hhead : headOf l = some head)
    (hc : Covered h p l (h.before start) (nextPosition h start requestCursor)) :
    Keeps (Told h p) (fun _ _ => True) (fun l' r => match r with
      | .ok outcome => outcome.drained = true → RangeDelivered h p l' start head
      | .error _ => True) l (p.drainPages start left requestCursor) := by
  induction left generalizing l requestCursor with
  | zero =>
    unfold LedgerPoller.drainPages
    refine (readPage_covers hhead hc).bind (fun l' page hpage => ?_) fun _ _ _ => trivial
    obtain ⟨hc', hr⟩ := hpage
    split
    · next hshort => exact fun _ => rangeDelivered_of_covered hc' hr hshort
    · exact fun hd => by cases hd
  | succ left ih =>
    unfold LedgerPoller.drainPages
    refine (readPage_covers hhead hc).extends.bind (fun l' page hpage => ?_) fun _ _ _ => trivial
    obtain ⟨hl, hc', hr⟩ := hpage
    split
    · next hshort => exact fun _ => rangeDelivered_of_covered hc' hr hshort
    · split
      · next cursor hcursor =>
        split
        · exact fun hd => by cases hd
        · refine ih (findSome_extends hhead hl) ?_
          rw [History.reached, hcursor] at hc'
          exact hc'
      · exact fun hd => by cases hd

end Drain

/-! ## The pass -/

section Pass

variable {h : History} {p : LedgerPoller} {l : List PollEntry}

/-- What is asked of each call of a pass: a cursor write is vouched for. -/
def WritesVouched (h : History) (p : LedgerPoller) (l : List PollEntry) : PollOp → Prop
  | .setCursor cursor => Vouched h p l cursor
  | _ => True

theorem writesVouched_of_drains {o : PollOp} (ho : p.Drains o) : WritesVouched h p l o := by
  cases o with
  | setCursor cursor => exact ho.elim
  | _ => trivial

theorem drainEvents_vouches {start : Nat} {head : LatestLedger} (hhead : headOf l = some head) :
    Keeps (Told h p) (WritesVouched h p) (fun l' r => match r with
      | .ok outcome => l <+: l' ∧ (outcome.drained = true → RangeDelivered h p l' start head)
      | .error _ => True) l (p.drainEvents start) := by
  have hc : Covered h p l (h.before start) (nextPosition h start none) := by
    intro i e hlow hhigh
    exact absurd hhigh (Nat.not_lt.2 hlow)
  have hops : Keeps (Told h p) (WritesVouched h p) (fun _ _ => True) l (p.drainEvents start) :=
    drainPages_keeps fun _ _ => writesVouched_of_drains
  refine ((drainPages_covers hhead hc).and hops).extends.mono (fun _ _ => And.right) fun l' r hr => ?_
  cases r with
  | error _ => trivial
  | ok outcome => exact ⟨hr.1, hr.2.1⟩

theorem commit_vouches {ack : Nat} {health : Health} {head : LatestLedger} {stored : Option Cursor}
    (hl : opening health head stored <+: l)
    (hrange : RangeDelivered h p l (rangeStart health head stored) head) :
    Keeps (Told h p) (WritesVouched h p) (fun _ _ => True) l (p.commit ack head) := by
  refine commit_keeps trivial (fun _ => trivial) ?_
  refine ⟨l, ⟨head.sequence, head.closeTime⟩, ack, rangeStart health head stored, rfl, rfl, ?_, hrange⟩
  exact passStart_opening (hl.trans (List.prefix_append _ _))

theorem pollOnce_vouches {ack : Nat} :
    Keeps (Told h p) (WritesVouched h p) (fun _ _ => True) [] (p.pollOnce ack) := by
  refine Keeps.opening (fun _ => trivial) (fun _ => trivial) (fun _ => trivial) (fun _ _ => trivial) ?_
  intro health head stored
  refine (startLedger_keeps trivial (fun _ _ _ _ => trivial) fun _ _ _ _ => trivial).extends.bind
    (fun l start hstart => ?_) fun _ _ _ => trivial
  obtain ⟨hl, rfl, -⟩ := hstart
  split
  · exact trivial
  · refine (drainEvents_vouches (headOf_opening hl)).bind (fun l' outcome hdrain => ?_) fun _ _ _ => trivial
    obtain ⟨hl', hdrain⟩ := hdrain
    split
    · next hdrained => exact commit_vouches (hl.trans hl') (hdrain hdrained)
    · exact trivial

end Pass

/-! ## The poller -/

/-- **The cursor skips nothing.** In every run of passes, whatever the answers,
failures, crashes and acknowledgements, in which pages are as truthful as
they say and each short page leaves no wanted event up to its pass's head
behind it, every cursor write is vouched for. -/
theorem cursor_skips_nothing (h : History) (p : LedgerPoller) (cursor : Option Cursor) (s : PollerState)
    (hrun : Reaches (PollerState.step p) (PollerState.Admits (Told h p)) { cursor } s)
    (written : Cursor) (next : Except StoreError Unit → Pass (Option LedgerTick))
    (hpass : s.pass = .op (.setCursor written) next) : Vouched h p s.log written := by
  have hkeeps : s.Keeping (Told h p) (WritesVouched h p) :=
    PollerState.keeping_of_reaches hrun fun _ => pollOnce_vouches
  unfold PollerState.Keeping at hkeeps
  rw [hpass] at hkeeps
  exact hkeeps.1

/-! ## A lagging node -/

/-- An auction deleted in ledger 5. -/
def missedEvent : Event where
  ledger := 5
  id := "5-0"
  contractId := "pool"
  inSuccessfulContractCall := true
  topics := [.symbol "delete_auction", .u32 0, .address "borrower"]
  value := .void

def missedHistory : History where
  events := [missedEvent]
  ordered := by simp
  position := fun _ => 0

/-- Every node has ingested ledger 5. -/
def freshWorld : PollWorld where
  health := .ok { oldestLedger := 1 }
  latestLedger := .ok { sequence := 5, closeTime := 0 }
  events := .ok { latestLedger := 5, cursor := none, events := [missedEvent] }
  acked := true

def caughtUp : PollerState :=
  (PollLabel.begin :: List.replicate 7 (.answer freshWorld)).foldl (PollerState.step ⟨"pool", 200⟩)
    { cursor := some { ledger := 3 } }

theorem cursor_skips_nothing_caughtUp : Vouched missedHistory ⟨"pool", 200⟩ caughtUp.log { ledger := 5 } := by
  have hreach : Reaches (PollerState.step ⟨"pool", 200⟩) (PollerState.Admits (Told missedHistory ⟨"pool", 200⟩))
      { cursor := some { ledger := 3 } } caughtUp := by
    refine Reaches.refl.run ?_
    refine ⟨trivial, ⟨trivial, trivial⟩, ⟨trivial, trivial⟩, ⟨trivial, trivial⟩, ⟨?_, ?_⟩, ⟨trivial, trivial⟩,
      ⟨trivial, trivial⟩, ⟨trivial, trivial⟩, trivial⟩
    · show missedHistory.Holds _ _
      decide
    · intro _ head _ e he
      have hnone : e ∈ ([] : List Event) := he
      cases hnone
  exact cursor_skips_nothing missedHistory ⟨"pool", 200⟩ _ caughtUp hreach _ _ rfl

/-- Head is 5, and the node that answers `getEvents` has ingested ledger 4. -/
def laggingWorld : PollWorld where
  health := .ok { oldestLedger := 1 }
  latestLedger := .ok { sequence := 5, closeTime := 0 }
  events := .ok { latestLedger := 4, cursor := none, events := [] }
  acked := true

def lagging : PollerState :=
  (PollLabel.begin :: List.replicate 6 (.answer laggingWorld)).foldl (PollerState.step ⟨"pool", 200⟩)
    { cursor := some { ledger := 3 } }

/-- The cursor is written at ledger 5 by a pass that read ledger 4: what was
emitted in ledger 5 is never sent. -/
theorem cursor_skips_event :
    ¬∀ (h : History) (p : LedgerPoller) (cursor : Option Cursor) (s : PollerState),
      Reaches (PollerState.step p) (PollerState.Admits fun _ => Truthful h) { cursor } s →
      ∀ (written : Cursor) (next : Except StoreError Unit → Pass (Option LedgerTick)),
        s.pass = .op (.setCursor written) next → Vouched h p s.log written := by
  intro hall
  have hreach : Reaches (PollerState.step ⟨"pool", 200⟩) (PollerState.Admits fun _ => Truthful missedHistory)
      { cursor := some { ledger := 3 } } lagging := by
    refine Reaches.refl.run ?_
    refine ⟨trivial, trivial, trivial, trivial, ?_, trivial, trivial, trivial⟩
    show missedHistory.Holds _ _
    decide
  obtain ⟨earlier, tick, ack, start, hlog, -, hstart, hdel⟩ := hall _ _ _ _ hreach _ _ rfl
  have hstart' : passStart lagging.log = some 4 := rfl
  rw [hstart'] at hstart
  cases hstart
  have hsent : ⟨.send (.event "pool" 5 (.deleteAuction .userLiquidation "borrower")), true⟩ ∈ earlier :=
    hdel missedEvent (by simp [missedHistory]) (by decide) (by decide) (by decide)
  have hlogged : ∀ x ∈ lagging.log, ∀ event, x ≠ ⟨.send (.event "pool" 5 event), true⟩ := by
    intro x hx event heq
    subst heq
    have hlog' : lagging.log = opening ⟨1⟩ ⟨5, 0⟩ (some ⟨3, none⟩) ++
        [⟨.events ⟨some 4, none, ["pool"], 200⟩, .ok ⟨4, none, []⟩⟩,
          ⟨.send (.tick "pool" ⟨5, 0⟩ 1), true⟩, ⟨.awaitAck, true⟩] := rfl
    rw [hlog'] at hx
    simp [opening] at hx
  exact hlogged _ (hlog ▸ List.mem_append_left _ hsent) _ rfl

end BlendLiquidator
