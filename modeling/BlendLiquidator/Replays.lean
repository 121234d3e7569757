/-
Replayed ledgers converge: a pool's events applied again from any earlier point,
any number of times, leave the auctions table and the accounts named as they
were.

An event overwrites its own row or leaves the table alone, whatever the row
held: the row of a key is what the key's last event wrote, and a suffix of the
events has the last word they had.
-/
import BlendLiquidator.AuctionTable
import BlendLiquidator.Traces

namespace BlendLiquidator

open Oracle Tables Traces

/-- How the chain answers `PoolReader::auction`, for one pool. -/
abbrev Remainders := String → AuctionType → Except ChainError (Option (Nat × AuctionData))

/-- The auction whose remainder an event has the tracker read. -/
def PoolEvent.readsRemainder : PoolEvent → Option (String × AuctionType)
  | .fillAuction auctionType user _ fillPercent _ => if fillPercent ≥ 100 then none else some (user, auctionType)
  | _ => none

/-- The row an event writes, and what it leaves there. -/
def writtenRow (remainders : Remainders) (pool : String) (ledger : Nat) :
    PoolEvent → Option (AuctionKey × Option TrackedAuction)
  | .newAuction auctionType user _ auction =>
    some ((pool, user, auctionType), some (Tracker.trackedAuction pool user auctionType auction ledger))
  | .fillAuction auctionType user _ fillPercent _ =>
    if fillPercent ≥ 100 then
      some ((pool, user, auctionType), none)
    else match remainders user auctionType with
      | .ok (some (readAt, remaining)) =>
        some ((pool, user, auctionType), some (Tracker.trackedAuction pool user auctionType remaining readAt))
      | .ok none => some ((pool, user, auctionType), none)
      | .error _ => none
  | .deleteAuction auctionType user => some ((pool, user, auctionType), none)
  | _ => none

/-- What an event says of a key's row. -/
def saysOf (remainders : Remainders) (pool : String) (key : AuctionKey) (event : Nat × PoolEvent) :
    Option (Option TrackedAuction) :=
  match writtenRow remainders pool event.1 event.2 with
  | some (written, row) => if written = key then some row else none
  | none => none

/-- Events applied one after another, the chain's answers fixed: the accounts
they named and the state they left. -/
inductive Applied (remainders : Remainders) (pool : String) :
    List (Nat × PoolEvent) → TrackerState → List String → TrackerState → Prop
  | done (s : TrackerState) : Applied remainders pool [] s [] s
  | next {event : Nat × PoolEvent} {events : List (Nat × PoolEvent)} {s s' s'' : TrackerState}
      {named more : List String} {env : Nat → Reading} {t t' : Nat}
      (answers : ∀ user auctionType, event.2.readsRemainder = some (user, auctionType) →
        (env t).auction = remainders user auctionType)
      (apply : Tracker.apply pool event.1 event.2 env t s = (.ok named, t', s'))
      (rest : Applied remainders pool events s' more s'') :
      Applied remainders pool (event :: events) s (named ++ more) s''

/-! ## One event -/

/-- A statement that answered took effect. -/
theorem execute_ok {run : Store → Store} {env : Nat → Reading} {t t' : Nat} {s s' : TrackerState}
    (h : execute run env t s = (.ok (), t', s')) : s' = { s with store := run s.store } := by
  simp only [execute, statement, recorded, bind, Prog.bind, Prog.ask, Prog.read] at h
  cases hstore : (env t).store with
  | ok _ =>
    rw [hstore] at h
    cases h
    simp [executed]
  | error error =>
    rw [hstore] at h
    cases h

/-- And would have on any state. -/
theorem execute_any {run : Store → Store} {env : Nat → Reading} {t t' : Nat} {s s' : TrackerState}
    (h : execute run env t s = (.ok (), t', s')) (start : TrackerState) :
    ∃ last, execute run env t start = (.ok (), t', last) := by
  simp only [execute, statement, recorded, bind, Prog.bind, Prog.ask, Prog.read] at h ⊢
  cases hstore : (env t).store with
  | ok _ =>
    rw [hstore] at h
    cases h
    exact ⟨_, rfl⟩
  | error error =>
    rw [hstore] at h
    cases h

theorem find_upsertAuction {store : Store} {row : TrackedAuction} {key : AuctionKey} :
    (store.upsertAuction row).auctions.find key = if row.key = key then some row else store.auctions.find key := by
  by_cases hkey : row.key = key
  · rw [if_pos hkey, ← hkey]
    refine find_upsert_self.trans ?_
    split <;> rfl
  · rw [if_neg hkey]
    exact find_upsert_of_ne (Ne.symm hkey)

theorem find_deleteAuction {store : Store} {pool account : String} {auctionType : AuctionType} {key : AuctionKey} :
    (store.deleteAuction pool account auctionType).auctions.find key =
      if (pool, account, auctionType) = key then none else store.auctions.find key := by
  by_cases hkey : (pool, account, auctionType) = key
  · rw [if_pos hkey, ← hkey]
    exact find_delete_self
  · rw [if_neg hkey]
    exact find_delete_of_ne (Ne.symm hkey)

/-- What an event's bookkeeping that answered left of the store. -/
theorem applyAuction_ok {remainders : Remainders} {pool : String} {ledger : Nat} {event : PoolEvent}
    {env : Nat → Reading} {t t' : Nat} {s s' : TrackerState}
    (hanswers : ∀ user auctionType, event.readsRemainder = some (user, auctionType) →
      (env t).auction = remainders user auctionType)
    (h : Tracker.applyAuction pool ledger event env t s = (.ok (), t', s')) :
    match writtenRow remainders pool ledger event with
    | some ((_, account, auctionType), none) => s' = { s with store := s.store.deleteAuction pool account auctionType }
    | some (_, some row) => s' = { s with store := s.store.upsertAuction row }
    | none => s' = s := by
  cases event with
  | newAuction auctionType user percent auction => exact execute_ok h
  | deleteAuction auctionType user => exact execute_ok h
  | fillAuction auctionType user filler fillPercent filled =>
    simp only [Tracker.applyAuction, writtenRow] at h ⊢
    by_cases hwhole : fillPercent ≥ 100
    · rw [if_pos hwhole] at h ⊢
      exact execute_ok h
    · rw [if_neg hwhole] at h ⊢
      have hread : (env t).auction = remainders user auctionType :=
        hanswers user auctionType (by simp [PoolEvent.readsRemainder, hwhole])
      simp only [Tracker.applyRemainder, bind, Prog.bind, Prog.ask, hread] at h
      cases hanswer : remainders user auctionType with
      | error error =>
        rw [hanswer] at h
        cases h
      | ok found =>
        rw [hanswer] at h
        cases found with
        | none => exact execute_ok h
        | some entry => exact execute_ok h
  | _ =>
    cases h
    rfl

theorem applyAuction_any {pool : String} {ledger : Nat} {event : PoolEvent} {env : Nat → Reading} {t t' : Nat}
    {s s' : TrackerState} (h : Tracker.applyAuction pool ledger event env t s = (.ok (), t', s')) (start : TrackerState) :
    ∃ last, Tracker.applyAuction pool ledger event env t start = (.ok (), t', last) := by
  cases event with
  | newAuction auctionType user percent auction => exact execute_any h start
  | deleteAuction auctionType user => exact execute_any h start
  | fillAuction auctionType user filler fillPercent filled =>
    simp only [Tracker.applyAuction] at h ⊢
    by_cases hwhole : fillPercent ≥ 100
    · rw [if_pos hwhole] at h ⊢
      exact execute_any h start
    · rw [if_neg hwhole] at h ⊢
      simp only [Tracker.applyRemainder, bind, Prog.bind, Prog.ask] at h ⊢
      cases hanswer : (env t).auction with
      | error error =>
        rw [hanswer] at h
        cases h
      | ok found =>
        rw [hanswer] at h
        cases found with
        | none => exact execute_any h start
        | some entry => exact execute_any h start
  | _ =>
    cases h
    exact ⟨start, rfl⟩

theorem writtenRow_key {remainders : Remainders} {pool : String} {ledger : Nat} {event : PoolEvent}
    {written : AuctionKey} {row : Option TrackedAuction}
    (h : writtenRow remainders pool ledger event = some (written, row)) :
    written.1 = pool ∧ ∀ kept, row = some kept → kept.key = written := by
  cases event with
  | newAuction auctionType user percent auction =>
    cases h
    exact ⟨rfl, fun kept hkept => by cases hkept; rfl⟩
  | deleteAuction auctionType user =>
    cases h
    exact ⟨rfl, fun kept hkept => by cases hkept⟩
  | fillAuction auctionType user filler fillPercent filled =>
    simp only [writtenRow] at h
    split at h
    · cases h
      exact ⟨rfl, fun kept hkept => by cases hkept⟩
    · split at h
      · cases h
        exact ⟨rfl, fun kept hkept => by cases hkept; rfl⟩
      · cases h
        exact ⟨rfl, fun kept hkept => by cases hkept⟩
      · cases h
  | _ => cases h

/-- An applied event leaves in each row what it says of it, and names its own
accounts. -/
theorem apply_written {remainders : Remainders} {pool : String} {event : Nat × PoolEvent} {env : Nat → Reading}
    {t t' : Nat} {s s' : TrackerState} {named : List String}
    (hanswers : ∀ user auctionType, event.2.readsRemainder = some (user, auctionType) →
      (env t).auction = remainders user auctionType)
    (h : Tracker.apply pool event.1 event.2 env t s = (.ok named, t', s')) :
    (∀ key, s'.store.auctions.find key = (saysOf remainders pool key event).getD (s.store.auctions.find key)) ∧
      named = event.2.affectedAccounts ∧
      ∀ start, ∃ last, Tracker.apply pool event.1 event.2 env t start = (.ok named, t', last) := by
  have hok : (Tracker.apply pool event.1 event.2 env t s).1 = .ok named := by rw [h]
  obtain ⟨_, t₁, s₁, hfirst, hrest⟩ := bind_answers hok
  have hboth : Tracker.apply pool event.1 event.2 env t s = (.ok event.2.affectedAccounts, t₁, s₁) := hrest
  rw [h] at hboth
  cases hboth
  have hrow := applyAuction_ok hanswers hfirst
  refine ⟨fun key => ?_, rfl, fun start => ?_⟩
  case refine_2 =>
    obtain ⟨last, hlast⟩ := applyAuction_any hfirst start
    refine ⟨last, ?_⟩
    simp only [Tracker.apply, bind, Prog.bind, hlast]
    rfl
  unfold saysOf
  cases hwritten : writtenRow remainders pool event.1 event.2 with
  | none =>
    rw [hwritten] at hrow
    simp only at hrow
    rw [hrow]
    rfl
  | some pair =>
    obtain ⟨⟨first, account, auctionType⟩, row⟩ := pair
    obtain ⟨hpool, hkey⟩ := writtenRow_key hwritten
    simp only at hpool
    subst hpool
    rw [hwritten] at hrow
    cases row with
    | none =>
      simp only at hrow ⊢
      rw [hrow, find_deleteAuction]
      split <;> rfl
    | some row =>
      simp only at hrow ⊢
      rw [hrow, find_upsertAuction, hkey row rfl]
      split <;> rfl

/-! ## Every run -/

variable {remainders : Remainders} {pool : String} {events : List (Nat × PoolEvent)} {s s' : TrackerState}
  {named : List String}

/-- The row of a key is the last that was said of it. -/
theorem Applied.find (h : Applied remainders pool events s named s') (key : AuctionKey) :
    s'.store.auctions.find key =
      (lastWord (saysOf remainders pool key) events).getD (s.store.auctions.find key) := by
  induction h with
  | done s => rfl
  | @next event events s s' s'' named more env t t' answers apply rest ih =>
    have hsplit : event :: events = [event] ++ events := rfl
    rw [ih, (apply_written answers apply).1 key, hsplit, lastWord_append]
    cases lastWord (saysOf remainders pool key) events with
    | none => simp [lastWord]
    | some row => rfl

theorem Applied.named_eq (h : Applied remainders pool events s named s') :
    named = events.flatMap fun event => event.2.affectedAccounts := by
  induction h with
  | done s => rfl
  | next answers apply rest ih => rw [List.flatMap_cons, ← ih, (apply_written answers apply).2.1]

/-- Events that were applied can be again, whatever the state. -/
theorem Applied.again (h : Applied remainders pool events s named s') (start : TrackerState) :
    ∃ last, Applied remainders pool events start named last := by
  induction h generalizing start with
  | done s => exact ⟨start, .done start⟩
  | next answers apply rest ih =>
    obtain ⟨mid, hmid⟩ := (apply_written answers apply).2.2 start
    obtain ⟨last, hlast⟩ := ih mid
    exact ⟨last, .next answers hmid hlast⟩

/-- So can the events from any cut on. -/
theorem Applied.drop (h : Applied remainders pool events s named s') (cut : Nat) :
    ∃ mid more, Applied remainders pool (events.drop cut) mid more s' := by
  induction h generalizing cut with
  | done s => exact ⟨s, [], by simpa using .done s⟩
  | next answers apply rest ih =>
    cases cut with
    | zero => exact ⟨_, _, .next answers apply rest⟩
    | succ cut => exact ih cut

/-- The events applied again, from one cut after another. -/
inductive Replayed (remainders : Remainders) (pool : String) (events : List (Nat × PoolEvent)) :
    List Nat → TrackerState → List String → TrackerState → Prop
  | done (s : TrackerState) : Replayed remainders pool events [] s [] s
  | again {cut : Nat} {cuts : List Nat} {s s' s'' : TrackerState} {named more : List String}
      (applied : Applied remainders pool (events.drop cut) s named s')
      (rest : Replayed remainders pool events cuts s' more s'') :
      Replayed remainders pool events (cut :: cuts) s (named ++ more) s''

/-- A table that holds the last word of the events holds it after each replay,
which names no account they did not. -/
theorem Replayed.keeps {cuts : List Nat} {original : AuctionKey → Option TrackedAuction}
    (h : Replayed remainders pool events cuts s named s')
    (hs : ∀ key, s.store.auctions.find key = (lastWord (saysOf remainders pool key) events).getD (original key)) :
    (∀ key, s'.store.auctions.find key = s.store.auctions.find key) ∧
      ∀ account ∈ named, account ∈ events.flatMap fun event => event.2.affectedAccounts := by
  induction h with
  | done s => exact ⟨fun _ => rfl, fun _ h => nomatch h⟩
  | @again cut cuts s s' s'' named more applied rest ih =>
    have hsame : ∀ key, s'.store.auctions.find key = s.store.auctions.find key := by
      intro key
      have hreplay := lastWord_replay (f := saysOf remainders pool key) events cut
      rw [lastWord_append] at hreplay
      rw [applied.find key, hs key, ← hreplay]
      cases lastWord (saysOf remainders pool key) (events.drop cut) with
      | none => rfl
      | some row => rfl
    obtain ⟨hrest, hmore⟩ := ih fun key => (hsame key).trans (hs key)
    refine ⟨fun key => (hrest key).trans (hsame key), fun account haccount => ?_⟩
    rcases List.mem_append.1 haccount with haccount | haccount
    · rw [applied.named_eq, List.mem_flatMap] at haccount
      obtain ⟨event, hevent, hin⟩ := haccount
      exact List.mem_flatMap.2 ⟨event, List.drop_subset cut events hevent, hin⟩
    · exact hmore account haccount

/-- Replayed ledgers converge: events that were applied can be applied again from
any cuts, one after another, and each time every row of the table and the set of
accounts named are what they were. -/
theorem replays_converge (h : Applied remainders pool events s named s') (cuts : List Nat) :
    (∃ more last, Replayed remainders pool events cuts s' more last) ∧
      ∀ more last, Replayed remainders pool events cuts s' more last →
        (∀ key, last.store.auctions.find key = s'.store.auctions.find key) ∧
        ∀ account, account ∈ named ++ more ↔ account ∈ named := by
  have hsuffix : ∀ cut state, ∃ more last, Applied remainders pool (events.drop cut) state more last := by
    intro cut state
    obtain ⟨mid, more, hmid⟩ := h.drop cut
    obtain ⟨last, hlast⟩ := hmid.again state
    exact ⟨more, last, hlast⟩
  constructor
  · generalize s' = state
    induction cuts generalizing state with
    | nil => exact ⟨[], state, .done state⟩
    | cons cut cuts ih =>
      obtain ⟨more, mid, hmid⟩ := hsuffix cut state
      obtain ⟨rest, last, hlast⟩ := ih mid
      exact ⟨more ++ rest, last, .again hmid hlast⟩
  · intro more last hreplayed
    obtain ⟨hsame, hmore⟩ := hreplayed.keeps h.find
    refine ⟨hsame, fun account => ?_⟩
    rw [List.mem_append, h.named_eq]
    constructor
    · rintro (hin | hin)
      · exact hin
      · exact hmore account hin
    · exact .inl

/-- A partial fill whose remainder the chain still holds. -/
def partlyFilled : List (Nat × PoolEvent) :=
  [(10, .newAuction .userLiquidation "BORROWER" 50 { block := 9 }),
    (11, .fillAuction .userLiquidation "BORROWER" "FILLER" 40 {})]

def heldRemainder : Remainders := fun _ _ => .ok (some (12, { block := 9 }))

theorem replays_converge_partlyFilled : ∃ named s', Applied heldRemainder "POOL" partlyFilled {} named s' ∧
    (∃ row, s'.store.auctions.find ("POOL", "BORROWER", .userLiquidation) = some row) ∧
    ∃ more last, Replayed heldRemainder "POOL" partlyFilled [0, 1] s' more last ∧
      ∀ key, last.store.auctions.find key = s'.store.auctions.find key := by
  let env : Nat → Reading := fun _ => { auction := .ok (some (12, { block := 9 })) }
  have happlied : ∃ named s', Applied heldRemainder "POOL" partlyFilled {} named s' ∧
      ∃ row, s'.store.auctions.find ("POOL", "BORROWER", .userLiquidation) = some row :=
    ⟨_, _, @Applied.next _ _ _ _ _ _ _ _ _ env 0 _ (fun _ _ _ => rfl) rfl
      (@Applied.next _ _ _ _ _ _ _ _ _ env 0 _ (fun _ _ _ => rfl) rfl (.done _)), _, rfl⟩
  obtain ⟨named, s', happlied, hrow⟩ := happlied
  obtain ⟨⟨more, last, hreplayed⟩, hsame⟩ := replays_converge happlied [0, 1]
  exact ⟨named, s', happlied, hrow, more, last, hreplayed, (hsame more last hreplayed).1⟩

end BlendLiquidator
