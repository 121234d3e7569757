/-
Whom the full scan reaches.

The scan pages by the very value others rewrite. A page has every row that is
after its cursor or leaves it ahead, so a borrower is missed only if its row
was ahead of the cursor when it was rewritten behind it: a fall of its health
factor. Some rewrites are followed by a flag of their own, a seed's are not,
and a tick's own flag may come after the scan's last page. So the scan misses
nobody in every run in which no rewrite takes a row past the cursor
(`KeepsAhead`), and there is a run in which one does.
-/
import BlendLiquidator.RecheckFacts

namespace BlendLiquidator

open Calls Tables

/-- A borrower is on the table below the threshold. -/
def BelowIn (store : Store) (pool : String) (threshold : Int) (account : String) : Prop :=
  ∃ row, store.user pool account = some row ∧ row.healthFactor < threshold

/-- It was at every moment since the scan's first read. -/
def StaysBelow (s : RecheckState) (pool : String) (threshold : Int) (account : String) : Prop :=
  ∀ store ∈ s.sinceScan.stores, BelowIn store pool threshold account

/-- No rewrite takes a borrower below the threshold, and not flagged since the
scan began, from ahead of the scan's cursor to behind it. -/
def KeepsAhead (s : RecheckState) : TrackerWrite → Prop
  | .upsert row => ∀ threshold, s.scanning = some (row.pool, threshold) →
      ∀ old, s.store.user row.pool row.account = some old → old.healthFactor < threshold →
      row.healthFactor < threshold → Keyset.IsAfter s.cursor (Store.healthKey old) →
      (row.pool, row.account) ∈ s.sinceScan.raised ∨ Keyset.IsAfter s.cursor (Store.healthKey row)
  | .delete _ _ | .flag _ _ _ => True

/-! ## The walk -/

/-- A scan under way: of those that stayed below each one is flagged, left on
the page that was read, or ahead of the cursor. -/
structure Walking (pool : String) (threshold : Int) (after : Option (Int ×ₗ String)) (left : List String)
    (s : RecheckState) : Prop where
  scanning : s.scanning = some (pool, threshold)
  cursor : s.cursor = after
  latest : s.store ∈ s.sinceScan.stores
  covered : ∀ account, StaysBelow s pool threshold account → (pool, account) ∈ s.sinceScan.raised ∨
    account ∈ left ∨ ∃ row, s.store.user pool account = some row ∧ Keyset.IsAfter after (Store.healthKey row)

section Walking

variable {pool : String} {threshold : Int} {after : Option (Int ×ₗ String)} {left left' : List String}
  {s : RecheckState} {statement : UserStatement}

/-- A row's place in the keyset, unless it is written over. -/
theorem healthKey_apply {store : Store} {account : String} {row row' : TrackedUser}
    (hrow : store.user pool account = some row) (hrow' : (statement.apply store).user pool account = some row')
    (hupsert : ∀ new, statement = .upsert new → new.key ≠ (pool, account)) :
    Store.healthKey row' = Store.healthKey row := by
  cases statement with
  | upsert new =>
    simp only [UserStatement.apply, Store.user_upsertUser, if_neg (hupsert new rfl).symm, hrow] at hrow'
    cases hrow'
    rfl
  | delete p a =>
    simp only [UserStatement.apply] at hrow'
    by_cases h : (pool, account) = (p, a)
    · cases h
      rw [Store.user_deleteUser_self] at hrow'
      cases hrow'
    · rw [Store.user_deleteUser_of_ne h, hrow] at hrow'
      cases hrow'
      rfl
  | flag p a ledger =>
    simp only [UserStatement.apply, Store.user_flagRecheck, hrow, Option.map_some, Option.some.injEq] at hrow'
    rw [← hrow']
    split <;> rfl
  | flagExposed p index side ledger =>
    simp only [UserStatement.apply, Store.user_flagExposedTo, hrow, Option.map_some, Option.some.injEq] at hrow'
    rw [← hrow']
    split <;> rfl
  | clear p a flaggedAt =>
    simp only [UserStatement.apply, Store.user_clearRecheck, hrow, Option.map_some, Option.some.injEq] at hrow'
    rw [← hrow']
    split
    · show Store.healthKey (if row.recheckLedger = some flaggedAt then { row with recheckLedger := none } else row) = _
      split <;> rfl
    · rfl

/-- What a statement leaves of the walk, if it takes no row past the cursor. -/
theorem Walking.wrote (h : Walking pool threshold after left s)
    (hleft : ∀ account ∈ left, account ∈ left' ∨ (pool, account) ∈ statement.raises s.store)
    (hahead : ∀ new, statement = .upsert new → KeepsAhead s (.upsert new)) :
    Walking pool threshold after left' (s.wrote statement) := by
  refine ⟨h.scanning, h.cursor, List.mem_append_right _ (List.mem_singleton.2 rfl), fun account hstays => ?_⟩
  have hstays' : StaysBelow s pool threshold account :=
    fun store hstore => hstays store (List.mem_append_left _ hstore)
  obtain ⟨row', hrow', hbelow'⟩ := hstays _ (List.mem_append_right _ (List.mem_singleton.2 rfl))
  rcases h.covered account hstays' with hraised | hin | ⟨row, hrow, hafter⟩
  · exact .inl (List.mem_append_left _ hraised)
  · rcases hleft account hin with hin | hraised
    · exact .inr (.inl hin)
    · exact .inl (List.mem_append_right _ hraised)
  · by_cases hupsert : ∃ new, statement = .upsert new ∧ new.key = (pool, account)
    · obtain ⟨new, rfl, hkey⟩ := hupsert
      obtain ⟨rfl, rfl⟩ := Prod.mk.inj hkey
      obtain ⟨old, hold, hbelow⟩ := hstays' _ h.latest
      rw [hrow] at hold
      cases hold
      have hnew : (s.store.upsertUser new).user new.pool new.account = some row' := hrow'
      rw [Store.user_upsertUser, if_pos hkey.symm] at hnew
      have hsame : Store.healthKey row' = Store.healthKey new ∧ row'.healthFactor = new.healthFactor := by
        cases hnew
        exact ⟨rfl, rfl⟩
      rw [hsame.2] at hbelow'
      rw [← h.cursor] at hafter
      rcases hahead new rfl threshold h.scanning row hrow hbelow hbelow' hafter with hraised | hnext
      · exact .inl (List.mem_append_left _ hraised)
      · rw [h.cursor, ← hsame.1] at hnext
        exact .inr (.inr ⟨row', hrow', hnext⟩)
    · have hkey := healthKey_apply hrow hrow' fun new hnew hkey => hupsert ⟨new, hnew, hkey⟩
      rw [← hkey] at hafter
      exact .inr (.inr ⟨row', hrow', hafter⟩)

theorem Walking.stable : Stable (recheck.sharing KeepsAhead) (Walking pool threshold after left) := by
  rintro s s' h ⟨label, hok, rfl⟩
  refine h.wrote (fun _ hin => .inl hin) fun new hnew => ?_
  cases label with
  | upsert row =>
    cases hnew
    exact hok
  | delete p a => cases hnew
  | flag p a ledger => cases hnew

end Walking

/-! ## The pages -/

/-- At the scan's last page, whoever stayed below has been flagged. -/
def AtLastPage : RecheckCall → RecheckState → Prop
  | .below pool threshold limit after, s => 1 ≤ limit → s.store.usersBelowHealth pool threshold limit after = [] →
      ∀ account, StaysBelow (s.tookPage pool threshold after []) pool threshold account →
        (pool, account) ∈ (s.tookPage pool threshold after []).sinceScan.raised
  | _, _ => True

section Pages

variable {pool : String} {threshold : Int} {ledger limit : Nat} {after : Option (Int ×ₗ String)}
  {s : RecheckState} {page : List TrackedUser}

theorem mem_below {store : Store} {account : String} {row : TrackedUser} (hrow : store.user pool account = some row)
    (hbelow : row.healthFactor < threshold) : row ∈ store.below pool threshold := by
  have hkey := Prod.mk.inj (Store.user_key hrow)
  exact List.mem_filter.2 ⟨Store.user_mem hrow, by simpa using ⟨hkey.1, hbelow⟩⟩

/-- Between pages: a walk with nothing left of the last page, unless none was
read yet. -/
def BetweenPages (pool : String) (threshold : Int) (after : Option (Int ×ₗ String)) (s : RecheckState) : Prop :=
  after = none ∨ Walking pool threshold after [] s

theorem BetweenPages.stable : Stable (recheck.sharing KeepsAhead) (BetweenPages pool threshold after) := by
  intro s s' h hstep
  exact h.imp_right fun hwalk => Walking.stable hwalk hstep

/-- A borrower that stayed below up to this read is flagged or still ahead. -/
theorem BetweenPages.covered {account : String} (h : BetweenPages pool threshold after s)
    (hstays : StaysBelow (s.tookPage pool threshold after page) pool threshold account) :
    ∃ row, s.store.user pool account = some row ∧ row.healthFactor < threshold ∧
      ((pool, account) ∈ (s.tookPage pool threshold after page).sinceScan.raised ∨
        Keyset.IsAfter after (Store.healthKey row)) := by
  rcases h with rfl | hwalk
  · obtain ⟨row, hrow, hbelow⟩ := hstays s.store (List.mem_singleton.2 rfl)
    exact ⟨row, hrow, hbelow, .inr (Keyset.isAfter_none _)⟩
  · by_cases hfirst : after.isNone = true
    · rw [Option.isNone_iff_eq_none.1 hfirst] at hstays ⊢
      obtain ⟨row, hrow, hbelow⟩ := hstays s.store (List.mem_singleton.2 rfl)
      exact ⟨row, hrow, hbelow, .inr (Keyset.isAfter_none _)⟩
    · have hsince : (s.tookPage pool threshold after page).sinceScan = s.sinceScan.then [] s.store := if_neg hfirst
      unfold StaysBelow at hstays
      rw [hsince] at hstays ⊢
      obtain ⟨row, hrow, hbelow⟩ := hstays s.store (List.mem_append_right _ (List.mem_singleton.2 rfl))
      refine ⟨row, hrow, hbelow, ?_⟩
      rcases hwalk.covered account fun store hstore => hstays store (List.mem_append_left _ hstore) with
        hraised | hin | ⟨row', hrow', hafter⟩
      · exact .inl (List.mem_append_left _ hraised)
      · cases hin
      · rw [hrow] at hrow'
        cases hrow'
        exact .inr hafter

theorem BetweenPages.atLastPage (h : BetweenPages pool threshold after s) :
    AtLastPage (.below pool threshold limit after) s := by
  intro hlimit hempty account hstays
  obtain ⟨row, hrow, hbelow, hraised | hafter⟩ := h.covered hstays
  · exact hraised
  · exact absurd hafter (Keyset.page_eq_nil hempty hlimit (mem_below hrow hbelow))

/-- A page read: each of its rows is left to be flagged. -/
theorem BetweenPages.read {last : TrackedUser} (h : BetweenPages pool threshold after s)
    (hpage : page = s.store.usersBelowHealth pool threshold limit after) (hlast : page.getLast? = some last) :
    Walking pool threshold (some (Store.healthKey last)) (page.map (·.account))
      (s.tookPage pool threshold after page) where
  scanning := by
    have hne : page.isEmpty = false := by
      cases page with
      | nil => cases hlast
      | cons => rfl
    simp [RecheckState.tookPage, hne]
  cursor := by simp [RecheckState.tookPage, hlast]
  latest := by
    show s.store ∈ (if after.isNone then (⟨[], [s.store]⟩ : Since) else s.sinceScan.then [] s.store).stores
    split
    · exact List.mem_singleton.2 rfl
    · exact List.mem_append_right _ (List.mem_singleton.2 rfl)
  covered account hstays := by
    obtain ⟨row, hrow, hbelow, hraised | hafter⟩ := h.covered hstays
    · exact .inl hraised
    · right
      have hkey := Prod.mk.inj (Store.user_key hrow)
      have honPage : row ∈ page → account ∈ page.map (·.account) :=
        fun hin => List.mem_map.2 ⟨row, hin, hkey.2⟩
      rw [hpage] at hlast
      rcases Keyset.mem_page_or_le hlast (mem_below hrow hbelow) hafter with hin | hle
      · exact .inl (honPage (hpage ▸ hin))
      · rcases hle.lt_or_eq with hlt | heq
        · refine .inr ⟨row, hrow, fun c hc => ?_⟩
          cases hc
          exact hlt
        · have hsame : last.account = account := (Prod.mk.inj (toLex.injective heq)).2.trans hkey.2
          exact .inl (List.mem_map.2 ⟨last, hpage ▸ List.mem_of_getLast? hlast, hsame⟩)

/-- A page flagged. -/
theorem flagPage_beside (h : Walking pool threshold after (page.map (·.account)) s) :
    Beside (recheck.sharing KeepsAhead) AtLastPage (fun r s => ∀ u, r = .ok u → Walking pool threshold after [] s)
      (flagPage pool ledger page) s := by
  refine Beside.forM (J := fun rest s => Walking pool threshold after (rest.map (·.account)) s) ?_ h
  intro user rest s hs
  refine Beside.bind_call Walking.stable hs fun t ht => ⟨trivial, fun w => Beside.lift ?_⟩
  intro u hok
  have hdone : w.store = .ok u := hok
  show Walking pool threshold after _ (if w.store.isOk || w.executed then t.wrote _ else t)
  rw [hdone]
  refine ht.wrote (fun account hin => ?_) nofun
  rcases List.mem_cons.1 hin with rfl | hin
  · exact .inr (List.mem_singleton.2 rfl)
  · exact .inl hin

theorem scanPages_covers {fuel : Nat} : ∀ {after : Option (Int ×ₗ String)} {flagged : Nat} {s : RecheckState},
    BetweenPages pool threshold after s →
    Beside (recheck.sharing KeepsAhead) AtLastPage (fun _ _ => True)
      (scanPages pool threshold ledger limit fuel after flagged) s := by
  induction fuel with
  | zero => exact fun _ => trivial
  | succ fuel ih =>
    intro after flagged s h
    unfold scanPages
    refine Beside.bind_call BetweenPages.stable h fun t ht => ⟨trivial, fun w => ?_⟩
    show Beside _ _ _ (if w.stopping = true then _ else _) t
    by_cases hstop : w.stopping = true
    · rw [if_pos hstop]
      exact trivial
    · rw [if_neg hstop]
      refine Beside.bind_call BetweenPages.stable ht fun t' ht' => ⟨ht'.atLastPage, fun w' => ?_⟩
      obtain ⟨answer, executed, decided, acted, moves, stopping⟩ := w'
      cases answer with
      | error error => exact trivial
      | ok _ =>
        rw [show Proc.lift _ = Proc.ret (t'.store.usersBelowHealth pool threshold limit after) from rfl]
        show Beside _ _ _ (Proc.bind _ _)
          (t'.tookPage pool threshold after (t'.store.usersBelowHealth pool threshold limit after))
        rw [Proc.bind]
        cases hlast : (t'.store.usersBelowHealth pool threshold limit after).getLast? with
        | none => exact trivial
        | some last =>
          refine Beside.bind (flagPage_beside (ht'.read rfl hlast)) (fun a u hu => ?_) fun _ _ _ => trivial
          exact ih (.inr (hu a rfl))

end Pages

/-! ## Turns -/

theorem atLastPage_of_not {o : RecheckCall} (s : RecheckState) (h : o.reads = false) : AtLastPage o s := by
  cases o with
  | below => cases h
  | write | needing | decide | act | moves | stopping => trivial

theorem settleFlag_only {pool account : String} {flaggedAt : Option Nat} {tick : LedgerTick}
    {acted : Except AuctioneerError ActOutcome} :
    Only (fun o => o.reads = false) (settleFlag pool account flaggedAt tick acted) := by
  have hforward : Only (fun o => o.reads = false) (moveFlagForward pool account flaggedAt tick) := write_only rfl
  unfold settleFlag
  cases acted with
  | error error => cases error <;> first | exact trivial | exact hforward
  | ok outcome =>
    by_cases hsettled : outcome.settled = true
    · simp only [hsettled, if_true]
      cases flaggedAt with
      | none => exact trivial
      | some flaggedAt => exact write_only rfl
    · simp only [hsettled]
      exact hforward

theorem actOn_only {pool : String} {flaggedAt : String → Option Nat} {tick : LedgerTick} :
    ∀ {decisions : List (String × Decision)},
      Only (fun o => o.reads = false) (actOn pool flaggedAt tick decisions)
  | [] => trivial
  | (account, decision) :: rest => by
    unfold actOn
    refine Only.bind_call rfl fun stopping => ?_
    by_cases hstop : stopping = true
    · rw [if_pos hstop]
      exact trivial
    · rw [if_neg hstop]
      exact Only.bind_call rfl fun acted => settleFlag_only.bind fun _ => actOn_only

theorem recheckBatch_only {pool : String} {batch : List TrackedUser} {tick : LedgerTick} :
    Only (fun o => o.reads = false) (recheckBatch pool batch tick) := by
  unfold recheckBatch
  by_cases hempty : batch.isEmpty = true
  · rw [if_pos hempty]
    exact trivial
  · rw [if_neg hempty]
    refine Only.bind_call rfl fun answer => ?_
    cases answer with
    | error error => cases error <;> exact trivial
    | ok decided =>
      refine Only.bind (Only.forM fun account => ?_) fun _ => actOn_only
      exact write_only rfl

theorem program_covers (turn : Turn) (s : RecheckState) :
    Beside (recheck.sharing KeepsAhead) AtLastPage (fun _ _ => True) turn.program s := by
  unfold Turn.program
  refine ((oracle_only turn).beside fun o s h => atLastPage_of_not s h.2).bind (fun _ t _ => ?_) fun _ _ _ => trivial
  refine Beside.bind (Q := fun _ _ => True) ?_ (fun goes t' _ => ?_) fun _ _ _ => trivial
  · unfold Turn.scan
    by_cases hdue : turn.fullDue = true
    · rw [if_pos hdue]
      exact (scanPages_covers (.inl rfl)).bind (fun _ _ _ => trivial) fun _ _ _ => trivial
    · rw [if_neg hdue]
      exact trivial
  · refine Only.beside ?_ fun o s h => atLastPage_of_not s h
    cases goes with
    | false => exact trivial
    | true => exact Only.bind_call rfl fun answer => Only.lift.bind fun batch => recheckBatch_only

/-! ## A quiet table -/

/-- The auctioneer alone on the table, nothing failing and no shutdown. -/
def quiet (s : RecheckState) (o : RecheckCall) : o.Answer × RecheckState := s.exec {} o

/-- The statements among the calls. -/
def statements (calls : List RecheckCall) : List UserStatement := calls.filterMap fun
  | .write statement => some statement
  | _ => none

section Quiet

variable {pool : String} {threshold : Int} {ledger limit : Nat} {after : Option (Int ×ₗ String)}
  {s : RecheckState} {page : List TrackedUser}

/-- The keys of those below, from a cursor on. -/
def keysBelow (store : Store) (pool : String) (threshold : Int) (after : Option (Int ×ₗ String)) :
    List (Int ×ₗ String) := Keyset.keysAfter Store.healthKey (store.below pool threshold) after

theorem below_nodup {store : Store} : ((store.below pool threshold).map Store.healthKey).Nodup := by
  have hkeys : ((store.below pool threshold).map TrackedUser.key).Nodup :=
    store.users.distinct.sublist (List.filter_sublist.map _)
  rw [List.nodup_map_iff_inj_on (List.Nodup.of_map _ hkeys)]
  intro user huser other hother heq
  refine List.inj_on_of_nodup_map hkeys huser hother ?_
  have hpool : ∀ user ∈ store.below pool threshold, user.pool = pool := by
    intro user huser
    have hin := (List.mem_filter.1 huser).2
    simp only [decide_eq_true_eq] at hin
    exact hin.1
  exact Prod.ext ((hpool user huser).trans (hpool other hother).symm) (Prod.mk.inj (toLex.injective heq)).2

theorem keysBelow_flagRecheck {store : Store} {account : String} :
    keysBelow (store.flagRecheck pool account ledger) pool threshold after = keysBelow store pool threshold after := by
  have hsame : ((store.flagRecheck pool account ledger).below pool threshold).map Store.healthKey =
      (store.below pool threshold).map Store.healthKey := by
    let raise := fun row : TrackedUser =>
      if row.key = (pool, account) then (Store.raiseRecheck ledger).apply row else row
    have hrow : ∀ row, (raise row).pool = row.pool ∧ (raise row).healthFactor = row.healthFactor ∧
        Store.healthKey (raise row) = Store.healthKey row := by
      intro row
      simp only [raise]
      split <;> exact ⟨rfl, rfl, rfl⟩
    show ((store.users.rows.map raise).filter _).map _ = _
    rw [List.filter_map, List.map_map]
    congr 1
    · funext row
      exact (hrow row).2.2
    · refine List.filter_congr fun row _ => ?_
      simp only [Function.comp, (hrow row).1, (hrow row).2.1]
  unfold keysBelow Keyset.keysAfter
  rw [hsame]

/-- A page flagged with nobody else on the table. -/
theorem flagPage_alone : ∃ s', (flagPage pool ledger page).alone quiet s = (.ok (), s',
      page.map fun user => .write (.flag pool user.account ledger)) ∧
    ∀ after, keysBelow s'.store pool threshold after = keysBelow s.store pool threshold after := by
  induction page generalizing s with
  | nil => exact ⟨s, rfl, fun _ => rfl⟩
  | cons user page ih =>
    obtain ⟨s', hrest, hkeys⟩ := @ih (s.wrote (.flag pool user.account ledger))
    refine ⟨s', ?_, fun after => (hkeys after).trans keysBelow_flagRecheck⟩
    have hfirst : (write (.flag pool user.account ledger)).alone quiet s =
        (.ok (), s.wrote (.flag pool user.account ledger), [.write (.flag pool user.account ledger)]) := rfl
    refine (Proc.alone_bind hfirst).trans ?_
    unfold flagPage at hrest
    rw [hrest]
    rfl

/-- One turn of the scan: it reads a page and goes on from there. -/
theorem scanPages_succ_alone {fuel : Nat} {after : Option (Int ×ₗ String)} {flagged : Nat}
    {r : Except StoreError (Option Nat)} {s' : RecheckState} {calls : List RecheckCall}
    (hrest : (match (s.store.usersBelowHealth pool threshold limit after).getLast? with
      | none => pure (some flagged)
      | some last => do
        flagPage pool ledger (s.store.usersBelowHealth pool threshold limit after)
        scanPages pool threshold ledger limit fuel (some (Store.healthKey last))
          (flagged + (s.store.usersBelowHealth pool threshold limit after).length) :
        Rechecking (Option Nat)).alone quiet
          (s.tookPage pool threshold after (s.store.usersBelowHealth pool threshold limit after)) = (r, s', calls)) :
    (scanPages pool threshold ledger limit (fuel + 1) after flagged).alone quiet s =
      (r, s', .stopping :: .below pool threshold limit after :: calls) :=
  congrArg (fun out => (out.1, out.2.1, RecheckCall.stopping :: .below pool threshold limit after :: out.2.2)) hrest

/-- From a cursor on the scan ends, having flagged each key after it, in order. -/
theorem scanPages_alone (hlimit : 1 ≤ limit) {fuel : Nat} :
    ∀ {after : Option (Int ×ₗ String)} {flagged : Nat} {s : RecheckState},
      (keysBelow s.store pool threshold after).length < fuel →
      ∃ s' calls, (scanPages pool threshold ledger limit fuel after flagged).alone quiet s =
          (.ok (some (flagged + (keysBelow s.store pool threshold after).length)), s', calls) ∧
        statements calls = (keysBelow s.store pool threshold after).map fun key =>
          .flag pool (ofLex key).2 ledger := by
  induction fuel with
  | zero => omega
  | succ fuel ih =>
    intro after flagged s hfuel
    have hpage : (s.store.usersBelowHealth pool threshold limit after).map Store.healthKey =
        (keysBelow s.store pool threshold after).take limit := Keyset.map_page
    generalize hread : s.store.usersBelowHealth pool threshold limit after = page at hpage
    let took := s.tookPage pool threshold after page
    have hstep := @scanPages_succ_alone pool threshold ledger limit s fuel after flagged
    rw [hread] at hstep
    cases hlast : page.getLast? with
    | none =>
      rw [hlast] at hstep
      have hkeys : keysBelow s.store pool threshold after = [] := by
        rw [List.getLast?_eq_none_iff.1 hlast, List.map_nil, eq_comm, List.take_eq_nil_iff] at hpage
        rcases hpage with hzero | hnil
        · omega
        · exact hnil
      rw [hkeys]
      exact ⟨took, _, hstep rfl, rfl⟩
    | some last =>
      rw [hlast] at hstep
      obtain ⟨s₁, hflag, hsame⟩ := @flagPage_alone pool threshold ledger took page
      have hnext : keysBelow s₁.store pool threshold (some (Store.healthKey last)) =
          (keysBelow s.store pool threshold after).drop limit := by
        rw [hsame]
        refine Keyset.keysAfter_last below_nodup ?_
        show ((keysBelow s.store pool threshold after).take limit).getLast? = _
        rw [← hpage, List.getLast?_map, hlast]
        rfl
      have hlength : page.length = ((keysBelow s.store pool threshold after).take limit).length := by
        rw [← hpage, List.length_map]
      have hne : page.length ≠ 0 := by
        intro hzero
        rw [List.length_eq_zero_iff.1 hzero] at hlast
        cases hlast
      have htotal := congrArg List.length (List.take_append_drop limit (keysBelow s.store pool threshold after))
      rw [List.length_append] at htotal
      obtain ⟨s₂, calls, hrest, hstatements⟩ :=
        @ih (some (Store.healthKey last)) (flagged + page.length) s₁ (by rw [hnext]; omega)
      rw [hnext] at hrest hstatements
      have hcount : flagged + page.length + ((keysBelow s.store pool threshold after).drop limit).length =
          flagged + (keysBelow s.store pool threshold after).length := by omega
      rw [hcount] at hrest
      refine ⟨s₂, _, hstep ((Proc.alone_bind hflag).trans (by rw [hrest])), ?_⟩
      have hflags : statements (page.map fun user => .write (.flag pool user.account ledger)) =
          ((keysBelow s.store pool threshold after).take limit).map fun key => .flag pool (ofLex key).2 ledger := by
        rw [← hpage, List.map_map, statements, List.filterMap_map, ← List.filterMap_eq_map]
        rfl
      show statements ((page.map fun user => .write (.flag pool user.account ledger)) ++ calls) = _
      unfold statements at hflags hstatements ⊢
      rw [List.filterMap_append, hflags, hstatements, ← List.map_append, List.take_append_drop]

/-- Who is below is the accounts of the keys. -/
theorem mem_keysBelow {store : Store} {account : String} :
    account ∈ (keysBelow store pool threshold none).map (fun key => (ofLex key).2) ↔
      BelowIn store pool threshold account := by
  rw [List.mem_map]
  constructor
  · rintro ⟨key, hkey, rfl⟩
    obtain ⟨row, hrow, rfl⟩ := List.mem_map.1 (Keyset.mem_keysAfter.1 hkey).1
    obtain ⟨hin, hbelow⟩ := List.mem_filter.1 hrow
    simp only [decide_eq_true_eq] at hbelow
    obtain ⟨rfl, hbelow⟩ := hbelow
    exact ⟨row, find_of_mem hin, hbelow⟩
  · rintro ⟨row, hrow, hbelow⟩
    have hkey := Prod.mk.inj (Store.user_key hrow)
    refine ⟨Store.healthKey row, Keyset.mem_keysAfter.2 ⟨?_, Keyset.isAfter_none _⟩, hkey.2⟩
    exact List.mem_map.2 ⟨row, mem_below hrow hbelow, rfl⟩

theorem keysBelow_accounts_nodup {store : Store} :
    ((keysBelow store pool threshold none).map fun key => (ofLex key).2).Nodup := by
  have hkeys : (keysBelow store pool threshold none).Nodup :=
    (Keyset.keysAfter_pairwise below_nodup).imp fun hlt => hlt.ne
  rw [List.nodup_map_iff_inj_on hkeys]
  intro key hkey other hother heq
  obtain ⟨row, hrow, rfl⟩ := List.mem_map.1 (Keyset.mem_keysAfter.1 hkey).1
  obtain ⟨row', hrow', rfl⟩ := List.mem_map.1 (Keyset.mem_keysAfter.1 hother).1
  obtain ⟨hin, hbelow⟩ := List.mem_filter.1 hrow
  obtain ⟨hin', hbelow'⟩ := List.mem_filter.1 hrow'
  simp only [decide_eq_true_eq] at hbelow hbelow'
  have hsame : row = row' := by
    refine List.inj_on_of_nodup_map store.users.distinct hin hin' ?_
    exact Prod.ext (hbelow.1.trans hbelow'.1.symm) heq
  rw [hsame]

end Quiet

/-! ## Runs -/

/-- The scan is about to read its last page: none is left. -/
def LastRead (j : RecheckSystem) (pool : String) (threshold : Int) : Prop :=
  ∃ limit after next, 1 ≤ limit ∧ j.task = some (.op (.below pool threshold limit after) next) ∧
    j.state.store.usersBelowHealth pool threshold limit after = []

/-- A full scan misses nobody in every run in which no rewrite takes a row past
its cursor: at its last read, each borrower below the threshold ever since the
first has been flagged. On a table nobody else writes it comes to its end and
flags each borrower below the threshold once. -/
theorem scan_misses_nobody (store : Store) (pool : String) (threshold : Int) :
    (∀ j, Rechecked KeepsAhead store j → LastRead j pool threshold → ∀ w, w.store = .ok () →
      ∀ account, StaysBelow (recheck.step j (.answers w)).state pool threshold account →
        (pool, account) ∈ (recheck.step j (.answers w)).state.sinceScan.raised) ∧
    ∃ accounts : List String, accounts.Nodup ∧ (∀ account, account ∈ accounts ↔ BelowIn store pool threshold account) ∧
      ∀ ledger limit fuel, 1 ≤ limit → accounts.length < fuel → ∃ s' calls,
        (fullScanAndFlag pool threshold ledger limit fuel).alone quiet { store } =
          (.ok (some accounts.length), s', calls) ∧
        statements calls = accounts.map fun account => .flag pool account ledger := by
  constructor
  · rintro ⟨s, task⟩ hrun ⟨limit, after, next, hlimit, rfl, hempty⟩ w hw account hstays
    have hstart : recheck.Standing KeepsAhead AtLastPage (fun _ => True) ⟨{ store }, none⟩ := trivial
    have hstands := Machine.reaches_standing stable_true (fun task s _ => program_covers task s) hstart hrun
    have hstep : (recheck.step ⟨s, some (.op (.below pool threshold limit after) next)⟩ (.answers w)).state =
        s.tookPage pool threshold after [] := by
      show (s.exec w (.below pool threshold limit after)).2 = _
      simp only [RecheckState.exec, hw, hempty]
    rw [hstep] at hstays ⊢
    exact hstands.asserted hlimit hempty account hstays
  · refine ⟨_, keysBelow_accounts_nodup, fun account => mem_keysBelow, ?_⟩
    intro ledger limit fuel hlimit hfuel
    rw [List.length_map] at hfuel ⊢
    obtain ⟨s', calls, hrun, hstatements⟩ := @scanPages_alone pool threshold ledger limit hlimit fuel none 0 { store } hfuel
    refine ⟨s', calls, ?_, ?_⟩
    · rw [Nat.zero_add] at hrun
      exact hrun
    · rw [hstatements, List.map_map]
      rfl

/-! ### A row rewritten ahead of the cursor, and one taken behind it -/

def sampleBorrower (account : String) (health : Int) : TrackedUser where
  pool := "POOL"
  account := account
  healthFactor := health
  collateral := ∅
  liabilities := ∅
  updatedLedger := 100
  recheckLedger := none

/-- Two borrowers below the threshold; the scan has flagged the first, and the
second is rewritten before the scan reads on. -/
def rewrittenDuring (health : Int) : List (Move TrackerWrite Turn RecheckWorld) :=
  [.other (.upsert (sampleBorrower "FIRST" 5)), .other (.upsert (sampleBorrower "SECOND" 8)),
   .begins { pool := "POOL", tick := ⟨100, 0⟩, limit := 1, threshold := 10, fullDue := true, fuel := 5 },
   .answers {}, .answers {}, .answers {}, .other (.upsert (sampleBorrower "SECOND" health)), .answers {}]

def afterRewritten (health : Int) : RecheckSystem := (rewrittenDuring health).foldl recheck.step ⟨{}, none⟩

theorem staysBelow_of_all {s : RecheckState} {pool account : String} {threshold : Int}
    (h : s.sinceScan.stores.all (fun store =>
      (store.user pool account).any fun row => decide (row.healthFactor < threshold)) = true) :
    StaysBelow s pool threshold account := by
  intro store hstore
  have hbelow := List.all_eq_true.1 h store hstore
  simpa [BelowIn, Option.any_eq_true] using hbelow

def afterSecondPage : RecheckSystem := [.answers {}, .answers {}, .answers {}].foldl recheck.step (afterRewritten 7)

/-- Rewritten ahead of the cursor, the second is read and flagged in turn. -/
theorem scan_flags_second :
    ("POOL", "SECOND") ∈ (recheck.step afterSecondPage (.answers {})).state.sinceScan.raised := by
  have hrun : Rechecked KeepsAhead {} afterSecondPage := by
    have hfirst : Rechecked KeepsAhead {} (afterRewritten 7) := by
      refine Reaches.run .refl ⟨nofun, nofun, trivial, trivial, trivial, trivial, ?_, trivial, trivial⟩
      intro threshold _ old _ _ _ _
      right
      show Keyset.IsAfter (some (toLex ((5 : Int), "FIRST"))) (toLex ((7 : Int), "SECOND"))
      decide
    exact hfirst.run ⟨trivial, trivial, trivial, trivial⟩
  refine (scan_misses_nobody {} "POOL" 10).1 _ hrun ⟨1, _, _, le_refl _, rfl, rfl⟩ {} rfl _ ?_
  exact staysBelow_of_all rfl

/-- Rewritten behind it, as a seed does, the second is below the threshold all
along and the scan ends without it. -/
theorem scan_misses_second : ∃ j, Rechecked (fun _ _ => True) {} j ∧ LastRead j "POOL" 10 ∧
    StaysBelow (recheck.step j (.answers {})).state "POOL" 10 "SECOND" ∧
    ("POOL", "SECOND") ∉ (recheck.step j (.answers {})).state.sinceScan.raised ∧
    (recheck.step j (.answers {})).state.store.flagOf "POOL" "SECOND" = none := by
  refine ⟨afterRewritten 3, Reaches.run .refl ?_, ⟨1, _, _, le_refl _, rfl, rfl⟩, ?_, ?_, rfl⟩
  · exact admitted_of_forall Machine.holding_true
  · exact staysBelow_of_all rfl
  · have hraised : (recheck.step (afterRewritten 3) (.answers {})).state.sinceScan.raised = [("POOL", "FIRST")] := rfl
    rw [hraised]
    decide

end BlendLiquidator
