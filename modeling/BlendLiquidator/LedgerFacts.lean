/-
Facts about a pass whatever it is watched for: what it knows by the time it
pages, which calls paging makes, and the rule by which a property of the pass
program becomes one of every state of a poller.
-/
import BlendLiquidator.Ledger

namespace BlendLiquidator

open Calls

/-! ## What a pass has read -/

/-- The window's edge the pass read. -/
def healthOf (l : List PollEntry) : Option Health := l.findSome? fun
  | ⟨.health, .ok health⟩ => some health
  | _ => none

/-- The head the pass read. -/
def headOf (l : List PollEntry) : Option LatestLedger := l.findSome? fun
  | ⟨.latestLedger, .ok head⟩ => some head
  | _ => none

/-- The cursor the pass read. -/
def storedOf (l : List PollEntry) : Option (Option Cursor) := l.findSome? fun
  | ⟨.cursor, .ok stored⟩ => some stored
  | _ => none

/-- Where a pass that read these starts. -/
def rangeStart (health : Health) (head : LatestLedger) : Option Cursor → Nat
  | none => head.sequence
  | some cursor => max (LedgerPoller.startAfter head (some cursor)) health.oldestLedger

/-- Where the pass's range starts, once it read what decides it. -/
def passStart (l : List PollEntry) : Option Nat := do
  let health ← healthOf l
  let head ← headOf l
  let stored ← storedOf l
  pure (rangeStart health head stored)

theorem findSome_extends {α β : Type} {f : α → Option β} {l l' : List α} {b : β} (h : l.findSome? f = some b)
    (hl : l <+: l') : l'.findSome? f = some b := by
  obtain ⟨t, rfl⟩ := hl
  rw [List.findSome?_append, h]
  rfl

theorem findSome_concat {α β : Type} {f : α → Option β} {l : List α} {a : α} {b : β}
    (h : (l ++ [a]).findSome? f = some b) : l.findSome? f = some b ∨ f a = some b := by
  rw [List.findSome?_append, Option.or_eq_some_iff] at h
  rcases h with h | ⟨-, h⟩
  · exact .inl h
  · refine .inr ?_
    simpa using h

theorem healthOf_concat {l : List PollEntry} {e : PollEntry} {health : Health}
    (h : healthOf (l ++ [e]) = some health) : healthOf l = some health ∨ e = ⟨.health, .ok health⟩ := by
  rcases findSome_concat h with h | h
  · exact .inl h
  · split at h
    · cases h
      exact .inr rfl
    · cases h

theorem storedOf_concat {l : List PollEntry} {e : PollEntry} {stored : Option Cursor}
    (h : storedOf (l ++ [e]) = some stored) : storedOf l = some stored ∨ e = ⟨.cursor, .ok stored⟩ := by
  rcases findSome_concat h with h | h
  · exact .inl h
  · split at h
    · cases h
      exact .inr rfl
    · cases h

/-- The three answers a pass begins with. -/
def opening (health : Health) (head : LatestLedger) (stored : Option Cursor) : List PollEntry :=
  [⟨.health, .ok health⟩, ⟨.latestLedger, .ok head⟩, ⟨.cursor, .ok stored⟩]

section Opening

variable {health : Health} {head : LatestLedger} {stored : Option Cursor} {l : List PollEntry}

theorem healthOf_opening (h : opening health head stored <+: l) : healthOf l = some health :=
  findSome_extends (l := opening health head stored) rfl h

theorem headOf_opening (h : opening health head stored <+: l) : headOf l = some head :=
  findSome_extends (l := opening health head stored) rfl h

theorem storedOf_opening (h : opening health head stored <+: l) : storedOf l = some stored :=
  findSome_extends (l := opening health head stored) rfl h

theorem passStart_opening (h : opening health head stored <+: l) :
    passStart l = some (rangeStart health head stored) := by
  unfold passStart
  rw [healthOf_opening h, headOf_opening h, storedOf_opening h]
  rfl

end Opening

/-! ## The calls of a pass -/

/-- What paging may ask for: a page, an event message of the poller's own
pool, or the log line. -/
def LedgerPoller.Drains (p : LedgerPoller) : PollOp → Prop
  | .events _ | .undecodable _ _ _ => True
  | .send (.event pool _ _) => pool = p.pool
  | _ => False

section Keeping

variable {p : LedgerPoller} {A : List PollEntry → (o : PollOp) → o.Answer → Prop}
  {P : List PollEntry → PollOp → Prop} {l : List PollEntry}

theorem Keeps.bind_readRpc {α β : Type} {x : Except RpcError α} {f : α → Pass β}
    {R : List PollEntry → Except LedgerError β → Prop} (hok : ∀ a, x = .ok a → Keeps A P R l (f a))
    (herr : ∀ e, R l (.error e)) : Keeps A P R l (readRpc x >>= f) := by
  cases x with
  | ok a => exact hok a rfl
  | error e => exact herr _

theorem Keeps.bind_readStore {α β : Type} {x : Except StoreError α} {f : α → Pass β}
    {R : List PollEntry → Except LedgerError β → Prop} (hok : ∀ a, x = .ok a → Keeps A P R l (f a))
    (herr : ∀ e, R l (.error e)) : Keeps A P R l (readStore x >>= f) := by
  cases x with
  | ok a => exact hok a rfl
  | error e => exact herr _

theorem Keeps.send {message : PollerMessage} {Q : List PollEntry → Except LedgerError Unit → Prop}
    (hp : P l (.send message)) (hok : Q (l ++ [⟨.send message, true⟩]) (.ok ()))
    (herr : ∀ l e, Q l (.error e)) : Keeps A P Q l (send message) := by
  refine Keeps.bind_call hp fun sent _ => ?_
  cases sent with
  | true => exact hok
  | false => exact herr _ _

theorem Keeps.getEvents {query : EventQuery} {Q : List PollEntry → Except LedgerError Events → Prop}
    (hp : P l (.events query))
    (hok : ∀ page, A l (.events query) (.ok page) → Q (l ++ [⟨.events query, .ok page⟩]) (.ok page))
    (herr : ∀ l e, Q l (.error e)) : Keeps A P Q l (getEvents query) := by
  unfold BlendLiquidator.getEvents
  have hcall : Keeps A P Q l (do readRpc (← Proc.call (.events query))) := by
    refine Keeps.bind_call hp fun answer ha => ?_
    cases answer with
    | ok page => exact hok page ha
    | error e => exact herr _ _
  split
  · exact herr _ _
  · split
    · exact herr _ _
    · split
      · exact hcall
      · exact hcall
      · exact herr _ _

/-- A pass opens with its three reads; `f` is the rest of it. -/
theorem Keeps.opening {β : Type} {f : Health → LatestLedger → Option Cursor → Pass β}
    {R : List PollEntry → Except LedgerError β → Prop} (hhealth : ∀ l, P l .health)
    (hhead : ∀ l, P l .latestLedger) (hcursor : ∀ l, P l .cursor) (herr : ∀ l e, R l (.error e))
    (hf : ∀ health head stored, Keeps A P R (opening health head stored) (f health head stored)) :
    Keeps A P R [] (do
      let health ← readRpc (← Proc.call .health)
      let head ← readRpc (← Proc.call .latestLedger)
      let stored ← readStore (← Proc.call .cursor)
      f health head stored) := by
  refine Keeps.bind_call (hhealth _) fun answer _ => Keeps.bind_readRpc (fun health h1 => ?_) fun _ => herr _ _
  subst h1
  refine Keeps.bind_call (hhead _) fun answer _ => Keeps.bind_readRpc (fun head h2 => ?_) fun _ => herr _ _
  subst h2
  refine Keeps.bind_call (hcursor _) fun answer _ => Keeps.bind_readStore (fun stored h3 => ?_) fun _ => herr _ _
  subst h3
  exact hf health head stored

/-- A gap the pass finds is reported by now: the field said so, or it was sent
in this pass. -/
def LedgerPoller.GapTold (p : LedgerPoller) (cursor : Cursor) (oldest : Nat) (l : List PollEntry) : Prop :=
  ⟨.gapReportedAt, some cursor.ledger⟩ ∈ l ∨ ⟨.send (.gap p.pool cursor.ledger oldest), true⟩ ∈ l

theorem reportGap_keeps {cursor : Cursor} {oldest : Nat} (hread : P l .gapReportedAt)
    (hgap : ∀ l', l <+: l' → ∀ last oldest, P l' (.send (.gap p.pool last oldest)))
    (hset : ∀ l last oldest, ⟨.send (.gap p.pool last oldest), true⟩ ∈ l → P l (.setGapReportedAt last)) :
    Keeps A P (fun l' r => match r with
      | .ok _ => p.GapTold cursor oldest l'
      | .error _ => True) l (p.reportGap cursor oldest) := by
  refine Keeps.bind_call hread fun reported _ => ?_
  split
  · next h =>
    subst h
    exact .inl (by simp)
  · have hsend : Keeps A P (fun l' r => match r with
        | .ok _ => ⟨.send (.gap p.pool cursor.ledger oldest), true⟩ ∈ l'
        | .error _ => True) (l ++ [⟨.gapReportedAt, reported⟩])
        (BlendLiquidator.send (.gap p.pool cursor.ledger oldest)) :=
      Keeps.send (hgap _ (List.prefix_append _ _) _ _) (by simp) fun _ _ => trivial
    refine hsend.bind (fun l' _ hl => ?_) fun _ _ _ => trivial
    exact ⟨hset _ _ _ hl, fun _ _ => .inr (List.mem_append_left _ hl)⟩

/-- Where the pass starts, and that a stale cursor was reported by then. -/
theorem startLedger_keeps {health : Health} {head : LatestLedger} {stored : Option Cursor}
    (hread : P l .gapReportedAt) (hgap : ∀ l', l <+: l' → ∀ last oldest, P l' (.send (.gap p.pool last oldest)))
    (hset : ∀ l last oldest, ⟨.send (.gap p.pool last oldest), true⟩ ∈ l → P l (.setGapReportedAt last)) :
    Keeps A P (fun l' r => match r with
      | .ok start => start = rangeStart health head stored ∧
        ∀ cursor, stored = some cursor → LedgerPoller.startAfter head stored < health.oldestLedger →
          p.GapTold cursor health.oldestLedger l'
      | .error _ => True) l (p.startLedger health head stored) := by
  unfold LedgerPoller.startLedger
  split
  · exact ⟨rfl, fun _ h => by cases h⟩
  · next cursor =>
    split
    · next hstale =>
      refine (reportGap_keeps hread hgap hset).bind (fun l' _ hl => ⟨?_, ?_⟩) fun _ _ _ => trivial
      · show _ = max _ _
        omega
      · rintro _ ⟨rfl⟩ _
        exact hl
    · next hfresh =>
      refine ⟨?_, fun _ _ hstale => absurd hstale hfresh⟩
      show _ = max _ _
      omega

theorem deliver_keeps {event : Event} (hP : ∀ l o, p.Drains o → P l o) :
    Keeps A P (fun _ _ => True) l (p.deliver event) := by
  unfold LedgerPoller.deliver
  split
  · exact trivial
  · split
    · exact Keeps.send (hP _ _ rfl) trivial fun _ _ => trivial
    · exact trivial
    · exact ⟨hP _ _ trivial, fun _ _ => trivial⟩

theorem readPage_keeps {start : Nat} {requestCursor : Option String} (hP : ∀ l o, p.Drains o → P l o) :
    Keeps A P (fun _ _ => True) l (p.readPage start requestCursor) := by
  have hpage : Keeps A P (fun _ _ => True) l (BlendLiquidator.getEvents (p.query start requestCursor)) :=
    Keeps.getEvents (hP _ _ trivial) (fun _ _ => trivial) fun _ _ => trivial
  refine hpage.bind (fun l page _ => ?_) fun _ _ _ => trivial
  have hall : Keeps A P (fun _ _ => True) l (page.events.forM p.deliver) := by
    refine (Keeps.forM (I := fun _ _ => True) (E := fun _ _ => True) (fun event rest l _ => ?_) trivial).mono
      (fun _ _ => id) fun _ _ _ => trivial
    exact (deliver_keeps hP).mono (fun _ _ => id) fun _ r _ => by cases r <;> trivial
  exact hall.bind (fun _ _ _ => trivial) fun _ _ _ => trivial

theorem drainPages_keeps {start left : Nat} {requestCursor : Option String}
    (hP : ∀ l o, p.Drains o → P l o) :
    Keeps A P (fun _ _ => True) l (p.drainPages start left requestCursor) := by
  induction left generalizing l requestCursor with
  | zero =>
    unfold LedgerPoller.drainPages
    refine (readPage_keeps hP).bind (fun l page _ => ?_) fun _ _ _ => trivial
    split <;> exact trivial
  | succ left ih =>
    unfold LedgerPoller.drainPages
    refine (readPage_keeps hP).bind (fun l page _ => ?_) fun _ _ _ => trivial
    split
    · exact trivial
    · split
      · split
        · exact trivial
        · exact ih
      · exact trivial

/-- The tick a pass that read `head` sends. -/
def LedgerPoller.tick (p : LedgerPoller) (ack : Nat) (head : LatestLedger) : PollerMessage :=
  .tick p.pool { sequence := head.sequence, closeTime := head.closeTime } ack

theorem commit_keeps {ack : Nat} {head : LatestLedger} (hsend : P l (.send (p.tick ack head)))
    (hack : ∀ l, P l .awaitAck)
    (hset : P (l ++ [⟨.send (p.tick ack head), true⟩, ⟨.awaitAck, true⟩]) (.setCursor { ledger := head.sequence })) :
    Keeps A P (fun _ _ => True) l (p.commit ack head) := by
  have htick : Keeps A P (fun l' r => match r with
      | .ok _ => l' = l ++ [⟨.send (p.tick ack head), true⟩]
      | .error _ => True) l (BlendLiquidator.send (p.tick ack head)) :=
    Keeps.send hsend rfl fun _ _ => trivial
  refine htick.bind (fun l' _ hl' => ?_) fun _ _ _ => trivial
  subst hl'
  refine Keeps.bind_call (hack _) fun acked _ => ?_
  cases acked with
  | false => exact trivial
  | true =>
    rw [List.append_assoc]
    exact Keeps.bind_call hset fun written _ => Keeps.bind_readStore (fun _ _ => trivial) fun _ => trivial

end Keeping

/-! ## From the pass to the poller -/

namespace PollerState

variable {p : LedgerPoller} {A : List PollEntry → (o : PollOp) → o.Answer → Prop}
  {P : List PollEntry → PollOp → Prop} {s : PollerState}

/-- The pass in progress keeps `P` from here on. -/
def Keeping (A : List PollEntry → (o : PollOp) → o.Answer → Prop) (P : List PollEntry → PollOp → Prop)
    (s : PollerState) : Prop := Keeps A P (fun _ _ => True) s.log s.pass

theorem keeping_begun (h : s.Keeping A P)
    (hpoll : Keeps A P (fun _ _ => True) [] (p.pollOnce (s.passes + 1))) :
    (s.begun p).Keeping A P := by
  unfold begun
  split
  · exact h
  · exact hpoll
  · exact hpoll

/-- What the start of a pass leaves alone. -/
theorem begun_frame : (s.begun p).cursor = s.cursor ∧ (s.begun p).gapReportedAt = s.gapReportedAt ∧
    ((s.begun p).log = [] ∨ (s.begun p).log = s.log) := by
  unfold begun
  split
  · exact ⟨rfl, rfl, .inr rfl⟩
  · exact ⟨rfl, rfl, .inl rfl⟩
  · exact ⟨rfl, rfl, .inl rfl⟩

/-- `A` admits the answer the label brings to the call the pass waits for. -/
def Admits (A : List PollEntry → (o : PollOp) → o.Answer → Prop) (s : PollerState) (label : PollLabel) : Prop :=
  match label, s.pass with
  | .answer w, .op o _ => A s.log o (w.answer s o)
  | _, _ => True

theorem keeping_answered {w : PollWorld} (h : s.Keeping A P) (hA : s.Admits A (.answer w)) :
    (s.answered w).Keeping A P := by
  unfold answered
  split
  · next o next hpass =>
    unfold Keeping at h
    unfold Admits at hA
    rw [hpass] at h hA
    exact h.2 _ hA
  · exact h
  · exact h

/-- **The rule for pollers.** What every pass program keeps under the answers
`A` admits, the pass in progress keeps in every state of a poller whose
answers `A` admits. -/
theorem keeping_of_reaches {cursor : Option Cursor} (h : Reaches (step p) (Admits A) { cursor } s)
    (hpoll : ∀ ack, Keeps A P (fun _ _ => True) [] (p.pollOnce ack)) :
    s.Keeping A P := by
  refine h.always (I := Keeping A P) trivial ?_
  intro s label hs hl
  cases label with
  | begin => exact keeping_begun hs (hpoll _)
  | answer w => exact keeping_answered hs hl
  | abandon => exact trivial
  | restart => exact trivial

end PollerState

end BlendLiquidator
