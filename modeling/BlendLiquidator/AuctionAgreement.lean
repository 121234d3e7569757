/-
When the auctions table agrees with the chain.

A row's presence is always what the chain held at some point of its history,
and the tracker's own writes are at points it has not passed yet. The filler
and the auctioneer write what they read, however long ago that was: a write
that comes after the tracker has moved past the read undoes it. So the table
agrees in every run in which those writes come in time (`InTime`), and there
is a run in which one does not.
-/
import BlendLiquidator.AuctionTable

namespace BlendLiquidator

open Calls Tables

/-! ## The chain's history -/

section History

variable {chain : List ChainEvent} {e : ChainEvent} {n : Nat} {key : AuctionKey}

theorem heldAt_append (h : n ≤ chain.length) : heldAt (chain ++ [e]) n key = heldAt chain n key := by
  unfold heldAt
  rw [List.take_append_of_le_length h]

theorem heldAt_succ (h : chain[n]? = some e) : heldAt chain (n + 1) key = e.leaves key (heldAt chain n key) := by
  unfold heldAt
  rw [List.take_add_one, h, Option.toList_some, List.foldl_concat]

end History

/-! ## Rows -/

/-- Whether the table has a row. -/
def present (store : Store) (key : AuctionKey) : Bool := (store.auctions.find key).isSome

/-- What a statement leaves of its row. -/
def AuctionCall.puts : AuctionCall → Bool
  | .upsert _ => true
  | .auction _ _ _ | .delete _ _ _ => false

theorem present_written {store : Store} {o : AuctionCall} {key : AuctionKey} :
    present (AuctionSystem.written store o) key = if o.writes = some key then o.puts else present store key := by
  cases o with
  | auction pool account auctionType => rfl
  | upsert row =>
    simp only [AuctionCall.writes, Option.some.injEq]
    split
    · next h =>
      subst h
      exact congrArg Option.isSome find_upsert_self
    · next h => exact congrArg Option.isSome (find_upsert_of_ne (Ne.symm h))
  | delete pool account auctionType =>
    simp only [AuctionCall.writes, Option.some.injEq]
    split
    · next h =>
      subst h
      exact congrArg Option.isSome find_delete_self
    · next h => exact congrArg Option.isSome (find_delete_of_ne (Ne.symm h))

/-- A call leaves a row alone, or as its statement puts it. -/
theorem present_effect {s : AuctionSystem} {w : AuctionWorld} {o : AuctionCall} {key : AuctionKey} :
    present (s.effect w o) key = present s.store key ∨
      o.writes = some key ∧ present (s.effect w o) key = o.puts := by
  have hwritten : present (AuctionSystem.written s.store o) key = present s.store key ∨
      o.writes = some key ∧ present (AuctionSystem.written s.store o) key = o.puts := by
    rw [present_written]
    split
    · next h => exact .inr ⟨h, rfl⟩
    · exact .inl rfl
  unfold AuctionSystem.effect
  split
  · exact hwritten
  · split
    · exact hwritten
    · exact .inl rfl

/-! ## What each writer writes -/

/-- The row a successful statement was about. -/
def done : AuctionEntry → Option AuctionKey
  | ⟨.upsert row, .ok _⟩ => some row.key
  | ⟨.delete pool account auctionType, .ok _⟩ => some (pool, account, auctionType)
  | _ => none

/-- The statement puts its row as the last read found the chain. -/
def Sourced (l : List AuctionEntry) (o : AuctionCall) : Prop :=
  ∀ key, o.writes = some key → ∃ answer : Option (Nat × AuctionData),
    l.getLast? = some ⟨.auction key.1 key.2.1 key.2.2, .ok answer⟩ ∧ answer.isSome = o.puts

/-- The statement puts its row as the last read found the chain, or as the
event leaves it. -/
def Justified (e : ChainEvent) (l : List AuctionEntry) (o : AuctionCall) : Prop :=
  Sourced l o ∨ ∀ key, o.writes = some key → ∀ held, e.leaves key held = o.puts

/-- Whatever row an event may have opened or closed was written last. -/
def Settled (e : ChainEvent) (l : List AuctionEntry) (r : Except TrackerError Unit) : Prop :=
  r = .ok () → ∀ key held, e.leaves key held ≠ held → ∃ entry, l.getLast? = some entry ∧ done entry = some key

theorem readEntry_sourced {row : TrackedAuction} (hrow : row.auctionType = .userLiquidation) :
    Keeps (fun _ _ _ => True) Sourced (fun _ _ => True) [] (Filler.readEntry row) := by
  unfold Filler.readEntry
  refine Keeps.bind_call (fun _ h => nomatch h) fun answer _ => ?_
  match answer with
  | .ok (some (_, auction)) => exact trivial
  | .ok none =>
    refine ⟨fun key hkey => ⟨none, ?_, rfl⟩, fun answer _ => ?_⟩
    · cases hkey
      rw [hrow]
      rfl
    · cases answer <;> exact trivial
  | .error _ => exact trivial

theorem adopt_sourced {pool account : String} :
    Keeps (fun _ _ _ => True) Sourced (fun _ _ => True) [] (Auctioneer.adopt pool account) := by
  unfold Auctioneer.adopt
  refine Keeps.bind_call (fun _ h => nomatch h) fun answer _ => ?_
  match answer with
  | .ok (some (ledger, auction)) =>
    refine ⟨fun key hkey => ⟨some (ledger, auction), ?_, rfl⟩, fun answer _ => ?_⟩
    · cases hkey
      rfl
    · cases answer <;> exact trivial
  | .ok none => exact trivial
  | .error _ => exact trivial

/-- A statement an event justifies, of the one row the event may change. -/
theorem writeAuction_settles {e : ChainEvent} {o : AuctionCall} {l : List AuctionEntry} {key : AuctionKey}
    (hwrites : o.writes = some key) (hjust : Justified e l o)
    (hother : ∀ key' held, e.leaves key' held ≠ held → key' = key) :
    Keeps (fun _ _ _ => True) (Justified e) (Settled e) l (writeAuction .store o) := by
  have hlast : ∀ (entry : AuctionEntry), done entry = some key → Settled e (l ++ [entry]) (.ok ()) :=
    fun entry hdone _ key' held hne => ⟨entry, List.getLast?_concat, (hother key' held hne).symm ▸ hdone⟩
  cases o with
  | auction pool account auctionType => cases hwrites
  | upsert row =>
    refine ⟨hjust, fun answer _ => ?_⟩
    match answer with
    | .ok () => exact hlast ⟨.upsert row, .ok ()⟩ hwrites
    | .error _ => exact fun h => nomatch h
  | delete pool account auctionType =>
    refine ⟨hjust, fun answer _ => ?_⟩
    match answer with
    | .ok () => exact hlast ⟨.delete pool account auctionType, .ok ()⟩ hwrites
    | .error _ => exact fun h => nomatch h

theorem applying_justified (e : ChainEvent) :
    Keeps (fun _ _ _ => True) (Justified e) (Settled e) [] (Tracker.applying e.pool e.ledger e.event) := by
  obtain ⟨pool, ledger, event⟩ := e
  cases event with
  | newAuction auctionType user percent auction =>
    refine writeAuction_settles (o := .upsert (Tracker.trackedAuction pool user auctionType auction ledger)) rfl
      (.inr fun key hkey held => ?_) fun key held hne => ?_
    · cases hkey
      exact if_pos rfl
    · by_contra hkey
      exact hne (if_neg (Ne.symm hkey))
  | deleteAuction auctionType user =>
    refine writeAuction_settles (o := .delete pool user auctionType) rfl (.inr fun key hkey held => ?_) fun key held hne => ?_
    · cases hkey
      exact if_pos rfl
    · by_contra hkey
      exact hne (if_neg (Ne.symm hkey))
  | fillAuction auctionType user filler fillPercent filled =>
    have hother : ∀ key held, (ChainEvent.mk pool ledger (.fillAuction auctionType user filler fillPercent
        filled)).leaves key held ≠ held → key = (pool, user, auctionType) := fun key held hne => by
      by_contra hkey
      exact hne (if_neg fun h => hkey h.1.symm)
    simp only [Tracker.applying]
    split
    · next hfull =>
      refine writeAuction_settles (o := .delete pool user auctionType) rfl (.inr fun key hkey held => ?_) hother
      cases hkey
      exact if_pos ⟨rfl, hfull⟩
    · refine Keeps.bind_call (.inl fun _ h => by cases h) fun answer _ => ?_
      cases answer with
      | error error =>
        intro h
        cases h
      | ok entry =>
        cases entry with
        | none =>
          refine writeAuction_settles (o := .delete pool user auctionType) rfl (.inl fun key hkey => ?_) hother
          cases hkey
          exact ⟨none, rfl, rfl⟩
        | some entry =>
          obtain ⟨seen, remaining⟩ := entry
          refine writeAuction_settles (o := .upsert (Tracker.trackedAuction pool user auctionType remaining seen))
            rfl (.inl fun key hkey => ?_) hother
          cases hkey
          exact ⟨some (seen, remaining), rfl, rfl⟩
  | _ => exact fun _ _ _ hne => absurd rfl hne

/-! ## What every step keeps -/

namespace AuctionSystem

/-- The row's presence is what the chain held at a point the tracker has not
passed. -/
def Current (s : AuctionSystem) (key : AuctionKey) : Prop :=
  ∃ j, s.applied ≤ j ∧ j ≤ s.seen ∧ present s.store key = heldAt s.chain j key

/-- What a task last read is what the chain held when the RPC showed `readAt`
of its events, `first` of them at least. -/
def ReadFrom {ε α : Type} (chain : List ChainEvent) (seen first : Nat) (task : WriterTask ε α) : Prop :=
  ∀ (key : AuctionKey) (answer : Option (Nat × AuctionData)),
    task.log.getLast? = some ⟨.auction key.1 key.2.1 key.2.2, .ok answer⟩ →
      first ≤ task.readAt ∧ task.readAt ≤ seen ∧ answer.isSome = heldAt chain task.readAt key

/-- A task of the filler or the auctioneer. -/
structure FromRead {ε α : Type} (chain : List ChainEvent) (seen : Nat) (task : WriterTask ε α) : Prop where
  keeps : Keeps (fun _ _ _ => True) Sourced (fun _ _ => True) task.log task.program
  read : ReadFrom chain seen 0 task

/-- The tracker's task, on the event it takes next. -/
structure FromEvent (chain : List ChainEvent) (seen next : Nat) (task : WriterTask TrackerError Unit) :
    Prop where
  event : ∃ e, chain[next]? = some e ∧ Keeps (fun _ _ _ => True) (Justified e) (Settled e) task.log task.program
  shown : next < seen
  read : ReadFrom chain seen (next + 1) task

structure Agreeing (s : AuctionSystem) : Prop where
  seen_le : s.seen ≤ s.chain.length
  applied_le : s.applied ≤ s.next
  next_le : s.next ≤ s.seen
  rows : ∀ key, s.Current key
  tracker : ∀ task, s.tracker = some task → FromEvent s.chain s.seen s.next task
  filler : ∀ task, s.filler = some task → FromRead s.chain s.seen task
  auctioneer : ∀ task, s.auctioneer = some task → FromRead s.chain s.seen task

/-- A write of the filler's or the auctioneer's comes in time: at some point
the tracker has not passed, the chain holds the auction, or not, as it did at
the read. -/
def Timely {ε α : Type} (s : AuctionSystem) (task : WriterTask ε α) : Prop :=
  ∀ o next key, task.program = .op o next → o.writes = some key →
    ∃ j, s.applied ≤ j ∧ j ≤ s.seen ∧ heldAt s.chain j key = heldAt s.chain task.readAt key

def InTime (s : AuctionSystem) : AuctionLabel → Prop
  | .answers .filler _ => ∀ task, s.filler = some task → s.Timely task
  | .answers .auctioneer _ => ∀ task, s.auctioneer = some task → s.Timely task
  | _ => True

section Steps

variable {s : AuctionSystem} {ε α : Type} {chain chain' : List ChainEvent} {seen seen' first : Nat}
  {task : WriterTask ε α} {o : AuctionCall} {next : o.Answer → Writing ε α}

/-- What a task read stays so while the chain and the RPC go on. -/
theorem ReadFrom.mono (h : ReadFrom chain seen first task) (hseen : seen ≤ seen')
    (hheld : ∀ n key, n ≤ seen → heldAt chain' n key = heldAt chain n key) :
    ReadFrom chain' seen' first task := by
  intro key answer hlast
  obtain ⟨hge, hle, hanswer⟩ := h key answer hlast
  exact ⟨hge, hle.trans hseen, by rw [hheld _ key hle]; exact hanswer⟩

theorem ReadFrom.start {program : Writing ε α} : ReadFrom chain seen first { program } :=
  fun _ _ h => nomatch h

/-- A read answered tells what the RPC shows. -/
theorem ReadFrom.advanced (hfirst : first ≤ s.seen) (w : AuctionWorld) :
    ReadFrom s.chain s.seen first (s.advanced w task o next) := by
  intro key answer hlast
  rw [show (s.advanced w task o next).log = task.log ++ [⟨o, s.answer w o⟩] from rfl,
    List.getLast?_concat, Option.some.injEq] at hlast
  obtain ⟨ho, hanswer⟩ := Sigma.mk.inj hlast
  subst ho
  refine ⟨hfirst, le_refl _, ?_⟩
  have hfound := eq_of_heq hanswer
  simp only [AuctionSystem.answer] at hfound
  cases hw : w.found with
  | error _ =>
    rw [hw] at hfound
    cases hfound
  | ok entry =>
    rw [hw] at hfound
    obtain rfl := Except.ok.inj hfound
    show (if heldAt s.chain s.seen key = true then some entry else none).isSome = heldAt s.chain s.seen key
    cases heldAt s.chain s.seen key <;> rfl

/-- The chain and the RPC going on keep all that was read and written. -/
theorem Agreeing.grows (h : s.Agreeing) (hlen : seen' ≤ chain'.length) (hseen : s.seen ≤ seen')
    (hheld : ∀ n key, n ≤ s.seen → heldAt chain' n key = heldAt s.chain n key)
    (hnext : ∀ e, s.chain[s.next]? = some e → chain'[s.next]? = some e) :
    ({ s with chain := chain', seen := seen' } : AuctionSystem).Agreeing where
  seen_le := hlen
  applied_le := h.applied_le
  next_le := h.next_le.trans hseen
  rows key := by
    obtain ⟨j, hge, hle, hrow⟩ := h.rows key
    exact ⟨j, hge, hle.trans hseen, hrow.trans (hheld j key hle).symm⟩
  tracker task htask := by
    obtain ⟨⟨e, he, hkeeps⟩, hshown, hread⟩ := h.tracker task htask
    exact ⟨⟨e, hnext e he, hkeeps⟩, hshown.trans_le hseen, hread.mono hseen hheld⟩
  filler task htask := ⟨(h.filler task htask).keeps, (h.filler task htask).read.mono hseen hheld⟩
  auctioneer task htask := ⟨(h.auctioneer task htask).keeps, (h.auctioneer task htask).read.mono hseen hheld⟩

theorem Agreeing.stored (h : s.Agreeing) {store : Store}
    (hrows : ∀ key, ∃ j, s.applied ≤ j ∧ j ≤ s.seen ∧ present store key = heldAt s.chain j key) :
    ({ s with store } : AuctionSystem).Agreeing :=
  ⟨h.seen_le, h.applied_le, h.next_le, hrows, h.tracker, h.filler, h.auctioneer⟩

/-! ## The filler and the auctioneer -/

theorem running_eq_some {task' : WriterTask ε α} (h : running task = some task') : task' = task := by
  unfold running at h
  split at h
  · exact (Option.some.inj h).symm
  · cases h
  · cases h

theorem FromRead.running {task' : WriterTask ε α} (h : FromRead chain seen task)
    (hrun : AuctionSystem.running task = some task') : FromRead chain seen task' :=
  running_eq_some hrun ▸ h

theorem FromRead.advanced {log : List AuctionEntry} {readAt : Nat}
    (h : FromRead s.chain s.seen ⟨.op o next, log, readAt⟩) (w : AuctionWorld) :
    FromRead s.chain s.seen (s.advanced w ⟨.op o next, log, readAt⟩ o next) :=
  ⟨h.keeps.2 (s.answer w o) trivial, ReadFrom.advanced (Nat.zero_le _) w⟩

/-- A write that comes in time leaves the table current. -/
theorem FromRead.current {log : List AuctionEntry} {readAt : Nat}
    (h : FromRead s.chain s.seen ⟨.op o next, log, readAt⟩) (hrows : ∀ key, s.Current key)
    (htimely : s.Timely ⟨.op o next, log, readAt⟩) (w : AuctionWorld) (key : AuctionKey) :
    ∃ j, s.applied ≤ j ∧ j ≤ s.seen ∧ present (s.effect w o) key = heldAt s.chain j key := by
  rcases @present_effect s w o key with hsame | ⟨hwrites, hputs⟩
  · rw [hsame]
    exact hrows key
  · obtain ⟨answer, hlast, hanswer⟩ := h.keeps.1 key hwrites
    obtain ⟨-, -, hheld⟩ := h.read key answer hlast
    obtain ⟨j, hge, hle, hj⟩ := htimely o next key rfl hwrites
    exact ⟨j, hge, hle, by rw [hputs, ← hanswer, hheld, hj]⟩

/-! ## The tracker -/

/-- The tracker's write is at a point past its event. -/
theorem FromEvent.current {next : o.Answer → Writing TrackerError Unit} {log : List AuctionEntry} {readAt : Nat}
    (h : FromEvent s.chain s.seen s.next ⟨.op o next, log, readAt⟩) {key : AuctionKey}
    (hwrites : o.writes = some key) :
    ∃ j, s.next + 1 ≤ j ∧ j ≤ s.seen ∧ o.puts = heldAt s.chain j key := by
  obtain ⟨e, he, hkeeps⟩ := h.event
  rcases hkeeps.1 with hsourced | hleaves
  · obtain ⟨answer, hlast, hanswer⟩ := hsourced key hwrites
    obtain ⟨hge, hle, hheld⟩ := h.read key answer hlast
    exact ⟨readAt, hge, hle, by rw [← hanswer, hheld]⟩
  · refine ⟨s.next + 1, le_refl _, h.shown, ?_⟩
    rw [heldAt_succ he]
    exact (hleaves key hwrites _).symm

theorem FromEvent.effect {next : o.Answer → Writing TrackerError Unit} {log : List AuctionEntry} {readAt : Nat}
    (h : FromEvent s.chain s.seen s.next ⟨.op o next, log, readAt⟩) (hs : s.Agreeing) (w : AuctionWorld)
    (key : AuctionKey) : ∃ j, s.applied ≤ j ∧ j ≤ s.seen ∧ present (s.effect w o) key = heldAt s.chain j key := by
  rcases @present_effect s w o key with hsame | ⟨hwrites, hputs⟩
  · rw [hsame]
    exact hs.rows key
  · obtain ⟨j, hge, hle, hj⟩ := h.current hwrites
    have happlied := hs.applied_le
    exact ⟨j, by omega, hle, hputs.trans hj⟩

/-- The tracker's task goes on, or ends; where it ends well, the rows its event
may have opened or closed are at points past it. -/
theorem Agreeing.tracking (h : s.Agreeing) {task : WriterTask TrackerError Unit}
    (htask : FromEvent s.chain s.seen s.next task)
    (hdone : ∀ e, s.chain[s.next]? = some e → task.program = .ret () → ∀ key held, e.leaves key held ≠ held →
      ∃ j, s.next + 1 ≤ j ∧ j ≤ s.seen ∧ present s.store key = heldAt s.chain j key) :
    (s.tracking task).Agreeing := by
  have happlied := h.applied_le
  have hshown := htask.shown
  unfold AuctionSystem.tracking
  split
  · exact { h with tracker := fun task' heq => Option.some.inj heq ▸ htask }
  · next hret =>
    obtain ⟨e, he, -⟩ := htask.event
    refine { h with applied_le := ?_, next_le := hshown, rows := fun key => ?_, tracker := nofun }
    · show (if s.next = s.applied then s.applied + 1 else s.applied) ≤ s.next + 1
      split <;> omega
    · show ∃ j, (if s.next = s.applied then s.applied + 1 else s.applied) ≤ j ∧ j ≤ s.seen ∧
        present s.store key = heldAt s.chain j key
      obtain ⟨j, hge, hle, hrow⟩ := h.rows key
      by_cases hlt : s.applied < j
      · exact ⟨j, by split <;> omega, hle, hrow⟩
      · obtain rfl : j = s.applied := by omega
        split
        · next hnext =>
          by_cases hchanges : e.leaves key (heldAt s.chain s.next key) = heldAt s.chain s.next key
          · refine ⟨s.applied + 1, le_refl _, by omega, ?_⟩
            rw [hrow, ← hnext, heldAt_succ he, hchanges]
          · obtain ⟨j, hge, hle, hrow⟩ := hdone e he hret key _ hchanges
            exact ⟨j, by omega, hle, hrow⟩
        · exact ⟨s.applied, le_refl _, hle, hrow⟩
  · refine { h with applied_le := ?_, next_le := hshown, tracker := nofun }
    exact happlied.trans (Nat.le_succ _)

/-- A statement that succeeded took effect. -/
theorem present_of_done {w : AuctionWorld} {key : AuctionKey} (h : done ⟨o, s.answer w o⟩ = some key) :
    o.writes = some key ∧ present (s.effect w o) key = o.puts := by
  have hwrites : o.writes = some key ∧ ∃ u, w.store = .ok u := by
    cases o with
    | auction pool account auctionType => cases h
    | upsert row =>
      simp only [AuctionSystem.answer] at h
      cases hw : w.store with
      | ok u => rw [hw] at h; exact ⟨h, u, rfl⟩
      | error _ => rw [hw] at h; cases h
    | delete pool account auctionType =>
      simp only [AuctionSystem.answer] at h
      cases hw : w.store with
      | ok u => rw [hw] at h; exact ⟨h, u, rfl⟩
      | error _ => rw [hw] at h; cases h
  obtain ⟨hwrites, u, hstore⟩ := hwrites
  refine ⟨hwrites, ?_⟩
  unfold AuctionSystem.effect
  rw [hstore]
  dsimp only
  rw [present_written, if_pos hwrites]

theorem Agreeing.tracker_answered (h : s.Agreeing) (w : AuctionWorld) : (s.answered w .tracker).Agreeing := by
  simp only [answered]
  split
  · next o next log readAt htask =>
    have hfrom := h.tracker _ htask
    have hstored := h.stored (hfrom.effect h w)
    obtain ⟨e, he, hkeeps⟩ := hfrom.event
    have hnext := hkeeps.2 (s.answer w o) trivial
    refine hstored.tracking ⟨⟨e, he, hnext⟩, hfrom.shown, ReadFrom.advanced hfrom.shown w⟩ ?_
    intro e' he' hret key held hchanges
    obtain rfl : e = e' := Option.some.inj (he.symm.trans he')
    have hsettled : Settled e (log ++ [⟨o, s.answer w o⟩]) (.ok ()) := by
      have hprogram : next (s.answer w o) = .ret () := hret
      rw [hprogram] at hnext
      exact hnext
    obtain ⟨entry, hlast, hdone⟩ := hsettled rfl key held hchanges
    rw [List.getLast?_concat, Option.some.injEq] at hlast
    subst hlast
    obtain ⟨hwrites, hputs⟩ := present_of_done hdone
    obtain ⟨j, hge, hle, hj⟩ := hfrom.current hwrites
    exact ⟨j, hge, hle, hputs.trans hj⟩
  · exact h

/-! ## Runs -/

theorem Agreeing.applies (h : s.Agreeing) : (s.step .applies).Agreeing := by
  simp only [step]
  split
  · next e _ he =>
    split
    · next hshown =>
      refine h.tracking ⟨⟨e, he, applying_justified e⟩, hshown, ReadFrom.start⟩ ?_
      intro e' he' hret key held hchanges
      obtain rfl : e = e' := Option.some.inj (he.symm.trans he')
      have hsettled : Settled e [] (.ok ()) := by
        have hkeeps := applying_justified e
        rw [show Tracker.applying e.pool e.ledger e.event = .ret () from hret] at hkeeps
        exact hkeeps
      obtain ⟨entry, hlast, -⟩ := hsettled rfl key held hchanges
      cases hlast
    · exact h
  · exact h

theorem Agreeing.startsOver (h : s.Agreeing) (n : Nat) : (s.step (.startsOver n)).Agreeing := by
  have happlied := h.applied_le
  have hnext := h.next_le
  simp only [step]
  split
  · next hidle =>
    refine { h with applied_le := le_refl _, next_le := ?_, rows := fun key => ?_, tracker := fun task htask => ?_ }
    · show min n s.applied ≤ s.seen
      omega
    · obtain ⟨j, hge, hle, hrow⟩ := h.rows key
      exact ⟨j, (min_le_right _ _).trans hge, hle, hrow⟩
    · rw [show s.tracker = none from hidle] at htask
      cases htask
  · exact h

theorem Agreeing.step (h : s.Agreeing) (l : AuctionLabel) (hl : s.InTime l) : (s.step l).Agreeing := by
  cases l with
  | happens e =>
    refine h.grows ?_ (le_refl _) (fun n key hn => heldAt_append (hn.trans h.seen_le)) fun e' he => ?_
    · rw [List.length_append]
      exact h.seen_le.trans (Nat.le_add_right _ _)
    · rw [List.getElem?_append_left (List.getElem?_eq_some_iff.1 he).1]
      exact he
  | shows n =>
    have hlen := h.seen_le
    exact h.grows (by omega) (le_max_left _ _) (fun _ _ _ => rfl) fun _ => id
  | applies => exact h.applies
  | startsOver n => exact h.startsOver n
  | reads row =>
    simp only [AuctionSystem.step]
    split
    · next hidle =>
      refine { h with filler := fun task htask => ?_ }
      exact FromRead.running ⟨readEntry_sourced hidle.2, ReadFrom.start⟩ htask
    · exact h
  | adopts pool account =>
    simp only [AuctionSystem.step]
    split
    · refine { h with auctioneer := fun task htask => ?_ }
      exact FromRead.running ⟨adopt_sourced, ReadFrom.start⟩ htask
    · exact h
  | answers writer w =>
    cases writer with
    | tracker => exact h.tracker_answered w
    | filler =>
      simp only [AuctionSystem.step, answered]
      split
      · next o next log readAt htask =>
        have hfrom := h.filler _ htask
        have hstored := h.stored (hfrom.current h.rows (hl _ htask) w)
        exact { hstored with filler := fun task ht => (hfrom.advanced w).running ht }
      · exact h
    | auctioneer =>
      simp only [AuctionSystem.step, answered]
      split
      · next o next log readAt htask =>
        have hfrom := h.auctioneer _ htask
        have hstored := h.stored (hfrom.current h.rows (hl _ htask) w)
        exact { hstored with auctioneer := fun task ht => (hfrom.advanced w).running ht }
      · exact h
  | abandons writer =>
    cases writer with
    | tracker => exact { h with tracker := nofun }
    | filler => exact { h with filler := nofun }
    | auctioneer => exact { h with auctioneer := nofun }

end Steps

theorem Agreeing.start : Agreeing {} where
  seen_le := le_refl _
  applied_le := le_refl _
  next_le := le_refl _
  rows _ := ⟨0, le_refl _, le_refl _, rfl⟩
  tracker := nofun
  filler := nofun
  auctioneer := nofun

/-- Every event of the chain has been applied. -/
def CaughtUp (s : AuctionSystem) : Prop := s.applied = s.chain.length

/-- A user liquidation has a row if and only if the chain holds it. -/
def TableAgrees (s : AuctionSystem) : Prop :=
  ∀ pool account, (s.store.auction pool account .userLiquidation).isSome =
    heldAt s.chain s.chain.length (pool, account, .userLiquidation)

/-- In every run in which the filler's and the auctioneer's writes come in
time, the table agrees with the chain whenever the tracker has caught up. -/
theorem table_agrees (s : AuctionSystem) (hrun : Reaches step InTime {} s) (hcaught : s.CaughtUp) :
    s.TableAgrees := by
  have h : s.Agreeing := hrun.always Agreeing.start fun h hl => h.step _ hl
  intro pool account
  obtain ⟨j, hge, hle, hrow⟩ := h.rows (pool, account, .userLiquidation)
  have hlen := h.seen_le
  rw [CaughtUp] at hcaught
  obtain rfl : j = s.chain.length := by omega
  exact hrow

/-! ## A write in time, and one too late -/

def sampleAuction : AuctionData where
  bid := .ofList [("USDC", (100 : Int))]
  lot := .ofList [("XLM", (900 : Int))]
  block := 5

/-- A borrower's auction opened, deleted and opened again. -/
def sampleOpened (ledger : Nat) : ChainEvent := ⟨"POOL", ledger, .newAuction .userLiquidation "BORROWER" 50 sampleAuction⟩

def sampleDeleted : ChainEvent := ⟨"POOL", 9, .deleteAuction .userLiquidation "BORROWER"⟩

def sampleFound : AuctionWorld := { found := .ok (9, sampleAuction) }

/-- The auction opens and the tracker writes its row; it is deleted, and the
filler reads that before the tracker applies it. -/
def readBeforeApplied : List AuctionLabel :=
  [.happens (sampleOpened 5), .shows 1, .applies, .answers .tracker {}, .happens sampleDeleted, .shows 2,
   .reads (Tracker.trackedAuction "POOL" "BORROWER" .userLiquidation sampleAuction 5),
   .answers .filler sampleFound]

/-- The filler closes the row and the tracker applies the deletion after it. -/
def closedInTime : List AuctionLabel :=
  readBeforeApplied ++ [.answers .filler {}, .applies, .answers .tracker {}]

/-- The tracker applies the deletion, and another auction of the borrower's,
before the filler closes the row. -/
def closedTooLate : List AuctionLabel :=
  readBeforeApplied ++
    [.happens (sampleOpened 10), .shows 3, .applies, .answers .tracker {}, .applies, .answers .tracker {},
     .answers .filler {}]

theorem table_agrees_closedInTime :
    (closedInTime.foldl step {}).CaughtUp ∧ (closedInTime.foldl step {}).TableAgrees := by
  have hrun : Reaches step InTime {} (closedInTime.foldl step {}) := by
    refine Reaches.run .refl ⟨trivial, trivial, trivial, trivial, trivial, trivial, trivial, ?_, ?_, trivial,
      trivial, trivial⟩
    · intro task htask o next key hprogram hwrites
      cases htask
      cases hprogram
      cases hwrites
    · intro task htask o next key hprogram hwrites
      cases htask
      cases hprogram
      cases hwrites
      exact ⟨2, by decide, by decide, by rfl⟩
  exact ⟨rfl, table_agrees _ hrun rfl⟩

/-- The row is gone, the tracker has caught up, nothing is under way, and the
chain holds the auction. -/
theorem table_loses_row : ∃ s, Reaches step (fun _ _ => True) {} s ∧ s.CaughtUp ∧
    (s.tracker = none ∧ s.filler = none ∧ s.auctioneer = none) ∧ ¬s.TableAgrees := by
  refine ⟨closedTooLate.foldl step {}, Reaches.run .refl admitted_true, rfl, ⟨rfl, rfl, rfl⟩, fun h => ?_⟩
  have hlost := h "POOL" "BORROWER"
  have hrow : ((closedTooLate.foldl step {}).store.auction "POOL" "BORROWER" .userLiquidation).isSome = false := rfl
  have hheld : heldAt (closedTooLate.foldl step {}).chain (closedTooLate.foldl step {}).chain.length
      ("POOL", "BORROWER", .userLiquidation) = true := rfl
  rw [hrow, hheld] at hlost
  cases hlost

end AuctionSystem

end BlendLiquidator
