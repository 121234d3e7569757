/-
Who a recheck pass serves.

A pass reads the oldest flags, and of each borrower it reads it leaves the flag
cleared or past its tick. Among the borrowers flagged up to a ledger, those a
pass at that ledger or later has read are therefore no longer flagged up to it,
and those it has not read are as they were: the ones still waiting come first in
the next batch, and there are fewer of them by a whole batch each time.
-/
import BlendLiquidator.RecheckFacts

namespace BlendLiquidator

open Calls Tables

/-! ## Passes on their own -/

/-- An answer that does not end a pass early. -/
def Undisturbed : Entry RecheckCall.Answer → Prop
  | ⟨.write _, answer⟩ => answer = .ok ()
  | ⟨.needing _ _, answer⟩ => ∃ batch, answer = .ok batch
  | ⟨.below _ _ _ _, answer⟩ => ∃ page, answer = .ok page
  | ⟨.decide _ _ _, answer⟩ => ∃ decided, answer = .ok decided
  | ⟨.act _ _ _ _, answer⟩ => ∀ error, answer ≠ .error (.store error)
  | ⟨.moves _ _, answer⟩ => ∃ moves, answer = .ok moves
  | ⟨.stopping, answer⟩ => answer = false

/-- The borrower is settled by an action of the pass. -/
def SettledIn (trace : List (Entry RecheckCall.Answer)) (pool account : String) : Prop :=
  ∃ decision tick outcome, (⟨.act pool account decision tick, .ok outcome⟩ : Entry RecheckCall.Answer) ∈ trace ∧
    outcome.settled = true

/-- The borrower is in the batch the pass read. -/
def InBatch (trace : List (Entry RecheckCall.Answer)) (pool : String) (limit : Nat) (account : String) : Prop :=
  ∃ batch, (⟨.needing pool limit, .ok batch⟩ : Entry RecheckCall.Answer) ∈ trace ∧ account ∈ batch.map (·.account)

/-- What a pass makes of some borrowers' flags: past `retryAt`, or cleared by an
action that settled them. Every other row is as it was. -/
structure FlagsHandled (pool : String) (retryAt : Nat) (settled : String → Prop) (accounts : List String)
    (before after : Store) : Prop where
  others : ∀ p a, (p = pool → a ∉ accounts) → after.user p a = before.user p a
  each : ∀ account ∈ accounts, ∀ flagged, before.flagOf pool account = some flagged →
    after.flagOf pool account = some (max flagged retryAt) ∨ after.flagOf pool account = none ∧ settled account

section FlagsHandled

variable {pool account : String} {retryAt : Nat} {settled settled' : String → Prop} {accounts accounts' : List String}
  {before mid after : Store}

theorem FlagsHandled.nil : FlagsHandled pool retryAt settled [] before before :=
  ⟨fun _ _ _ => rfl, fun _ h => nomatch h⟩

theorem FlagsHandled.flag_others (h : FlagsHandled pool retryAt settled accounts before after) (hnot : account ∉ accounts) :
    after.flagOf pool account = before.flagOf pool account := by
  unfold Store.flagOf
  rw [h.others pool account fun _ => hnot]

theorem FlagsHandled.append (h : FlagsHandled pool retryAt settled accounts before mid)
    (h' : FlagsHandled pool retryAt settled accounts' mid after) (hdisjoint : accounts.Disjoint accounts') :
    FlagsHandled pool retryAt settled (accounts ++ accounts') before after := by
  refine ⟨fun p a hnot => ?_, fun account hin flagged hflag => ?_⟩
  · simp only [List.mem_append, not_or] at hnot
    rw [h'.others p a fun hp => (hnot hp).2, h.others p a fun hp => (hnot hp).1]
  · rcases List.mem_append.1 hin with hfirst | hsecond
    · rw [h'.flag_others (hdisjoint hfirst)]
      exact h.each account hfirst flagged hflag
    · rw [← h.flag_others fun hfirst => hdisjoint hfirst hsecond] at hflag
      exact h'.each account hsecond flagged hflag

theorem FlagsHandled.congr (h : FlagsHandled pool retryAt settled accounts before after)
    (hsame : ∀ account, account ∈ accounts ↔ account ∈ accounts') (hsettled : ∀ account, settled account → settled' account) :
    FlagsHandled pool retryAt settled' accounts' before after := by
  refine ⟨fun p a hnot => h.others p a fun hp hin => hnot hp ((hsame a).1 hin), fun account hin flagged hflag => ?_⟩
  exact (h.each account ((hsame account).2 hin) flagged hflag).imp_right fun hnone => ⟨hnone.1, hsettled account hnone.2⟩

theorem flagOf_flagRecheck_self {ledger flagged : Nat} (h : before.flagOf pool account = some flagged) :
    (before.flagRecheck pool account ledger).flagOf pool account = some (max flagged ledger) := by
  unfold Store.flagOf at h ⊢
  rw [Store.user_flagRecheck]
  cases hrow : before.user pool account with
  | none => rw [hrow] at h; cases h
  | some row =>
    rw [hrow] at h
    rw [Option.map_some, if_pos (Store.user_key hrow), Option.bind_some]
    simp only [Store.raiseRecheck, show row.recheckLedger = some flagged from h]

theorem flagOf_clearRecheck_self {flagged : Nat} (h : before.flagOf pool account = some flagged) :
    (before.clearRecheck pool account flagged).flagOf pool account = none := by
  unfold Store.flagOf at h ⊢
  rw [Store.user_clearRecheck]
  cases hrow : before.user pool account with
  | none => rw [hrow] at h; cases h
  | some row =>
    rw [hrow] at h
    rw [Option.map_some, if_pos (Store.user_key hrow), Option.bind_some]
    simp only [Store.lowerRecheck, show row.recheckLedger = some flagged from h, if_true]

/-- A statement on one row of the table leaves the others. -/
theorem user_flagRecheck_of_ne {ledger : Nat} {p a : String} (h : p = pool → a ∉ [account]) :
    (before.flagRecheck pool account ledger).user p a = before.user p a := by
  rw [Store.user_flagRecheck]
  cases hrow : before.user p a with
  | none => rfl
  | some row =>
    have hne : row.key ≠ (pool, account) := by
      rw [Store.user_key hrow]
      intro heq
      cases heq
      exact h rfl List.mem_cons_self
    rw [Option.map_some, if_neg hne]

theorem user_clearRecheck_of_ne {flagged : Nat} {p a : String} (h : p = pool → a ∉ [account]) :
    (before.clearRecheck pool account flagged).user p a = before.user p a := by
  rw [Store.user_clearRecheck]
  cases hrow : before.user p a with
  | none => rfl
  | some row =>
    have hne : row.key ≠ (pool, account) := by
      rw [Store.user_key hrow]
      intro heq
      cases heq
      exact h rfl List.mem_cons_self
    rw [Option.map_some, if_neg hne]

theorem FlagsHandled.flag {ledger : Nat}
    (hledger : ∀ flagged, before.flagOf pool account = some flagged → ledger = max flagged retryAt) :
    FlagsHandled pool retryAt settled [account] before (before.flagRecheck pool account ledger) := by
  refine ⟨fun p a hnot => user_flagRecheck_of_ne hnot, fun account' hin flagged hflag => .inl ?_⟩
  rw [List.mem_singleton] at hin
  subst hin
  rw [flagOf_flagRecheck_self hflag, hledger flagged hflag, ← max_assoc, max_self]

theorem FlagsHandled.clear {flagged : Nat} (hflag : before.flagOf pool account = some flagged) (hsettled : settled account) :
    FlagsHandled pool retryAt settled [account] before (before.clearRecheck pool account flagged) := by
  refine ⟨fun p a hnot => user_clearRecheck_of_ne hnot, fun account' hin flagged' hflag' => .inr ?_⟩
  rw [List.mem_singleton] at hin
  subst hin
  exact ⟨flagOf_clearRecheck_self hflag, hsettled⟩

end FlagsHandled

section Pass

variable {pool account : String} {tick : LedgerTick} {s s' : RecheckState} {trace : List (Entry RecheckCall.Answer)}
  {r : Except StoreError Unit} {settled : String → Prop}

/-- Where a pass puts the flags it does not clear. -/
def LedgerTick.retryAt (tick : LedgerTick) : Nat := min (tick.sequence + 1) u32Max

theorem write_runs {statement : UserStatement} (h : Runs recheck.exec (write statement) s trace r s')
    (hok : ∀ e ∈ trace, Undisturbed e) : r = .ok () ∧ s'.store = statement.apply s.store := by
  obtain ⟨w, rest, htrace, hrest⟩ := h.of_call_bind
  subst htrace
  have hanswer : (recheck.exec s w (.write statement)).1 = .ok () := hok _ List.mem_cons_self
  rw [hanswer] at hrest
  obtain ⟨-, hr, hs⟩ := Runs.of_pure hrest
  refine ⟨hr, ?_⟩
  have hstore : w.store = .ok () := hanswer
  rw [hs]
  simp [recheck, RecheckState.exec, hstore, Except.isOk, Except.toBool, RecheckState.wrote]

theorem moveFlagForward_runs {flaggedAt : Option Nat}
    (h : Runs recheck.exec (moveFlagForward pool account flaggedAt tick) s trace r s')
    (hok : ∀ e ∈ trace, Undisturbed e) (hflag : flaggedAt = s.store.flagOf pool account) :
    r = .ok () ∧ FlagsHandled pool tick.retryAt settled [account] s.store s'.store := by
  obtain ⟨hr, hs⟩ := write_runs h hok
  refine ⟨hr, ?_⟩
  rw [hs]
  refine FlagsHandled.flag fun flagged hflagged => ?_
  rw [hflagged] at hflag
  subst hflag
  rfl

theorem settleFlag_runs {flaggedAt : Option Nat} {acted : Except AuctioneerError ActOutcome}
    (h : Runs recheck.exec (settleFlag pool account flaggedAt tick acted) s trace r s')
    (hok : ∀ e ∈ trace, Undisturbed e) (hacted : ∀ error, acted ≠ .error (.store error))
    (hflag : flaggedAt = s.store.flagOf pool account)
    (hsettled : ∀ outcome, acted = .ok outcome → outcome.settled = true → settled account) :
    r = .ok () ∧ FlagsHandled pool tick.retryAt settled [account] s.store s'.store := by
  unfold settleFlag at h
  split at h
  · next outcome =>
    split at h
    · next hdone =>
      split at h
      · next flagged =>
        obtain ⟨hr, hs⟩ := write_runs h hok
        rw [hs]
        exact ⟨hr, .clear hflag.symm (hsettled outcome rfl hdone)⟩
      · obtain ⟨-, hr, hs⟩ := Runs.of_pure h
        rw [hs]
        refine ⟨hr, fun _ _ _ => rfl, fun account' hin flagged hflagged => ?_⟩
        rw [List.mem_singleton] at hin
        subst hin
        rw [← hflag] at hflagged
        cases hflagged
    · exact moveFlagForward_runs h hok hflag
  · next error => exact absurd rfl (hacted error)
  · exact moveFlagForward_runs h hok hflag

/-- The loop over the undecided. -/
theorem forM_moveFlagForward_runs {flaggedAt : String → Option Nat} {accounts : List String} (hnodup : accounts.Nodup)
    (h : Runs recheck.exec (accounts.forM fun account => moveFlagForward pool account (flaggedAt account) tick) s trace r s')
    (hok : ∀ e ∈ trace, Undisturbed e) (hflag : ∀ account ∈ accounts, flaggedAt account = s.store.flagOf pool account) :
    r = .ok () ∧ FlagsHandled pool tick.retryAt settled accounts s.store s'.store := by
  induction accounts generalizing s trace with
  | nil =>
    obtain ⟨-, hr, hs⟩ := Runs.of_pure h
    rw [hs]
    exact ⟨hr, .nil⟩
  | cons account rest ih =>
    rw [List.nodup_cons] at hnodup
    rcases Runs.of_bind (show Runs recheck.exec (moveFlagForward pool account (flaggedAt account) tick >>= fun _ =>
        rest.forM fun account => moveFlagForward pool account (flaggedAt account) tick) s trace r s' from h) with
      ⟨_, mid, first, last, htrace, hfirst, hlast⟩ | ⟨e, hr, hfirst⟩
    · subst htrace
      have hhead : FlagsHandled pool tick.retryAt settled [account] s.store mid.store :=
        (moveFlagForward_runs hfirst (fun e he => hok e (List.mem_append_left _ he))
          (hflag account List.mem_cons_self)).2
      have hrest : ∀ a ∈ rest, flaggedAt a = mid.store.flagOf pool a := by
        intro a ha
        rw [hflag a (List.mem_cons_of_mem _ ha), hhead.flag_others]
        rw [List.mem_singleton]
        rintro rfl
        exact hnodup.1 ha
      obtain ⟨hr, htail⟩ := ih hnodup.2 hlast (fun e he => hok e (List.mem_append_right _ he)) hrest
      exact ⟨hr, hhead.append htail (List.singleton_disjoint.2 hnodup.1)⟩
    · have hbad : Except.error e = Except.ok () ∧ FlagsHandled pool tick.retryAt settled [account] s.store s'.store :=
        moveFlagForward_runs hfirst hok (hflag account List.mem_cons_self)
      cases hbad.1

/-- The loop over the decided. -/
theorem actOn_runs {flaggedAt : String → Option Nat} {decisions : List (String × Decision)}
    (hnodup : (decisions.map Prod.fst).Nodup)
    (h : Runs recheck.exec (actOn pool flaggedAt tick decisions) s trace r s') (hok : ∀ e ∈ trace, Undisturbed e)
    (hflag : ∀ account ∈ decisions.map Prod.fst, flaggedAt account = s.store.flagOf pool account)
    (hsettled : ∀ account, SettledIn trace pool account → settled account) :
    FlagsHandled pool tick.retryAt settled (decisions.map Prod.fst) s.store s'.store := by
  induction decisions generalizing s trace with
  | nil =>
    obtain ⟨-, -, hs⟩ := Runs.of_pure h
    rw [hs]
    exact .nil
  | cons entry rest ih =>
    obtain ⟨account, decision⟩ := entry
    rw [List.map_cons, List.nodup_cons] at hnodup
    unfold actOn at h
    obtain ⟨w, afterStopping, htrace, hnext⟩ := h.of_call_bind
    subst htrace
    have hgoing : (recheck.exec s w .stopping).1 = false := hok _ List.mem_cons_self
    rw [hgoing] at hnext
    obtain ⟨w', afterAct, htrace, hacting⟩ := Runs.of_call_bind hnext
    subst htrace
    have hacted : ∀ error, w'.acted ≠ .error (.store error) :=
      hok _ (List.mem_cons_of_mem _ List.mem_cons_self)
    rcases Runs.of_bind hacting with ⟨_, mid, first, last, htrace, hfirst, hlast⟩ | ⟨e, hr, hfirst⟩
    · subst htrace
      have hhead : FlagsHandled pool tick.retryAt settled [account] s.store mid.store := by
        refine (settleFlag_runs hfirst (fun e he => ?_) hacted (hflag account List.mem_cons_self) ?_).2
        · exact hok e (List.mem_cons_of_mem _ (List.mem_cons_of_mem _ (List.mem_append_left _ he)))
        · intro outcome houtcome hdone
          refine hsettled account ⟨decision, tick, outcome, ?_, hdone⟩
          rw [← houtcome]
          exact List.mem_cons_of_mem _ List.mem_cons_self
      have hrest : ∀ a ∈ rest.map Prod.fst, flaggedAt a = mid.store.flagOf pool a := by
        intro a ha
        rw [hflag a (List.mem_cons_of_mem _ ha), hhead.flag_others]
        rw [List.mem_singleton]
        rintro rfl
        exact hnodup.1 ha
      have htail : FlagsHandled pool tick.retryAt settled (rest.map Prod.fst) mid.store s'.store := by
        refine ih hnodup.2 hlast ?_ hrest ?_
        · intro e he
          exact hok e (List.mem_cons_of_mem _ (List.mem_cons_of_mem _ (List.mem_append_right _ he)))
        · intro a hin
          obtain ⟨d, t, outcome, hin, hdone⟩ := hin
          refine hsettled a ⟨d, t, outcome, ?_, hdone⟩
          exact List.mem_cons_of_mem _ (List.mem_cons_of_mem _ (List.mem_append_right _ hin))
      exact hhead.append htail (List.singleton_disjoint.2 hnodup.1)
    · have hbad : Except.error e = Except.ok () ∧ FlagsHandled pool tick.retryAt (fun _ => True) [account] _ s'.store :=
        settleFlag_runs hfirst (fun e he => hok e (List.mem_cons_of_mem _ (List.mem_cons_of_mem _ he))) hacted
          (hflag account List.mem_cons_self) fun _ _ _ => trivial
      cases hbad.1

end Pass

/-! ## A batch -/

section Batch

variable {store : Store} {pool account : String} {limit : Nat} {batch : List TrackedUser} {decided : String → Option Decision}

theorem flaggedAtOf_batch (h : account ∈ (store.usersNeedingRecheck pool limit).map (·.account)) :
    flaggedAtOf (store.usersNeedingRecheck pool limit) account = store.flagOf pool account := by
  obtain ⟨user, huser, haccount⟩ := List.mem_map.1 h
  unfold flaggedAtOf Store.flagOf
  cases hfound : (store.usersNeedingRecheck pool limit).find? fun user => user.account = account with
  | none =>
    have hnot := List.find?_eq_none.1 hfound user huser
    simp [haccount] at hnot
  | some found =>
    obtain ⟨hrow, hpool⟩ := usersNeedingRecheck_mem (List.mem_of_find?_eq_some hfound)
    have hname : found.account = account := by simpa using List.find?_some hfound
    have hkey : (pool, account) = found.key := by rw [← hpool, ← hname]; rfl
    have huser' : store.user pool account = some found := by
      show store.users.find (pool, account) = some found
      rw [hkey]
      exact find_of_mem hrow
    rw [huser']

/-- Each borrower of a batch is decided or not. -/
theorem mem_undecidedOf_append_iff : account ∈ undecidedOf batch decided ++ (decisionsOf batch decided).map Prod.fst ↔
    account ∈ batch.map (·.account) := by
  unfold undecidedOf decisionsOf
  rw [List.mem_append, List.mem_insertionSort, List.mem_map, List.mem_map, List.mem_map]
  constructor
  · intro h
    rcases h with ⟨user, huser, haccount⟩ | ⟨entry, hentry, haccount⟩
    · exact ⟨user, (List.mem_filter.1 huser).1, haccount⟩
    · obtain ⟨user, huser, hdecided⟩ := List.mem_filterMap.1 hentry
      obtain ⟨decision, -, heq⟩ := Option.map_eq_some_iff.1 hdecided
      exact ⟨user, huser, by rw [← haccount, ← heq]⟩
  · intro ⟨user, huser, haccount⟩
    cases hdecided : decided user.account with
    | none => exact .inl ⟨user, List.mem_filter.2 ⟨huser, by rw [hdecided]; rfl⟩, haccount⟩
    | some decision =>
      refine .inr ⟨(user.account, decision), List.mem_filterMap.2 ⟨user, huser, ?_⟩, haccount⟩
      rw [hdecided]
      rfl

theorem undecidedOf_nodup (h : (batch.map (·.account)).Nodup) : (undecidedOf batch decided).Nodup := by
  unfold undecidedOf
  rw [(List.perm_insertionSort _ _).nodup_iff]
  exact h.sublist (List.filter_sublist.map _)

theorem undecidedOf_disjoint : (undecidedOf batch decided).Disjoint ((decisionsOf batch decided).map Prod.fst) := by
  intro account hundecided hdecided
  have hsome := decisionsOf_accounts.2 account hdecided
  rw [undecidedOf_mem hundecided] at hsome
  cases hsome

theorem recheckBatch_runs {tick : LedgerTick} {s s' : RecheckState} {trace : List (Entry RecheckCall.Answer)}
    {r : Except StoreError Unit} (hnodup : (batch.map (·.account)).Nodup)
    (h : Runs recheck.exec (recheckBatch pool batch tick) s trace r s') (hok : ∀ e ∈ trace, Undisturbed e)
    (hflag : ∀ account ∈ batch.map (·.account), flaggedAtOf batch account = s.store.flagOf pool account) :
    FlagsHandled pool tick.retryAt (SettledIn trace pool) (batch.map (·.account)) s.store s'.store := by
  unfold recheckBatch at h
  by_cases hempty : batch.isEmpty = true
  · rw [if_pos hempty] at h
    obtain ⟨-, -, hs⟩ := Runs.of_pure h
    rw [List.isEmpty_iff.1 hempty, hs]
    exact .nil
  rw [if_neg hempty] at h
  obtain ⟨w, rest, htrace, hdecide⟩ := h.of_call_bind
  subst htrace
  have hanswer : ∃ decided, w.decided = .ok decided := hok _ List.mem_cons_self
  obtain ⟨decided, hdecided⟩ := hanswer
  have hrest : ∀ e ∈ rest, Undisturbed e := fun e he => hok e (List.mem_cons_of_mem _ he)
  have hgoes : Runs recheck.exec ((undecidedOf batch decided).forM (fun account =>
      moveFlagForward pool account (flaggedAtOf batch account) tick) >>= fun _ =>
      actOn pool (flaggedAtOf batch) tick (decisionsOf batch decided)) s rest r s' := by
    have hprogram : (recheck.exec s w (.decide pool batch tick)).1 = .ok decided := hdecided
    rw [hprogram] at hdecide
    exact hdecide
  have hundecided : ∀ account ∈ undecidedOf batch decided, flaggedAtOf batch account = s.store.flagOf pool account :=
    fun account hin => hflag account (mem_undecidedOf_append_iff.1 (List.mem_append_left _ hin))
  rcases Runs.of_bind hgoes with ⟨_, mid, first, last, htrace, hfirst, hlast⟩ | ⟨e, hr, hfirst⟩
  · subst htrace
    have hmoved : FlagsHandled pool tick.retryAt (SettledIn last pool) (undecidedOf batch decided) s.store mid.store :=
      (forM_moveFlagForward_runs (undecidedOf_nodup hnodup) hfirst
        (fun e he => hrest e (List.mem_append_left _ he)) hundecided).2
    have hacted : FlagsHandled pool tick.retryAt (SettledIn last pool) ((decisionsOf batch decided).map Prod.fst) mid.store
        s'.store := by
      refine actOn_runs (hnodup.sublist decisionsOf_accounts.1) hlast (fun e he => hrest e (List.mem_append_right _ he))
        (fun account hin => ?_) fun _ => id
      rw [hmoved.flag_others fun hund => undecidedOf_disjoint hund hin]
      exact hflag account (mem_undecidedOf_append_iff.1 (List.mem_append_right _ hin))
    refine (hmoved.append hacted undecidedOf_disjoint).congr (fun _ => mem_undecidedOf_append_iff) ?_
    intro account ⟨decision, tick, outcome, hin, hdone⟩
    exact ⟨decision, tick, outcome, List.mem_cons_of_mem _ (List.mem_append_right _ hin), hdone⟩
  · have hbad : Except.error e = Except.ok () ∧
        FlagsHandled pool tick.retryAt (SettledIn rest pool) (undecidedOf batch decided) s.store s'.store :=
      forM_moveFlagForward_runs (undecidedOf_nodup hnodup) hfirst hrest hundecided
    cases hbad.1

/-- A pass: `users_needing_recheck`, then `recheck_batch`, with no scan due. -/
def passOf (pool : String) (limit : Nat) (threshold : Int) (tick : LedgerTick) : Turn := { pool, tick, limit, threshold }

/-- What a pass that is not ended early makes of the flags. -/
theorem pass_runs {threshold : Int} {tick : LedgerTick} {s s' : RecheckState} {trace : List (Entry RecheckCall.Answer)}
    {r : Except StoreError Unit} (h : Runs recheck.exec (passOf pool limit threshold tick).program s trace r s')
    (hok : ∀ e ∈ trace, Undisturbed e) :
    (⟨.needing pool limit, .ok (s.store.usersNeedingRecheck pool limit)⟩ : Entry RecheckCall.Answer) ∈ trace ∧
      FlagsHandled pool tick.retryAt (SettledIn trace pool) ((s.store.usersNeedingRecheck pool limit).map (·.account)) s.store
        s'.store := by
  have hprogram : (passOf pool limit threshold tick).program =
      (Proc.call (RecheckCall.needing pool limit) >>= fun answer => Proc.lift answer >>= fun batch =>
        recheckBatch pool batch tick) := rfl
  rw [hprogram] at h
  obtain ⟨w, rest, htrace, hread⟩ := h.of_call_bind
  subst htrace
  obtain ⟨batch, hanswer⟩ : ∃ batch, (recheck.exec s w (.needing pool limit)).1 = .ok batch := hok _ List.mem_cons_self
  have hstore : w.store = .ok () := by
    cases hw : w.store with
    | ok _ => rfl
    | error error =>
      simp only [recheck, RecheckState.exec, hw] at hanswer
      cases hanswer
  have hexec : recheck.exec s w (.needing pool limit) =
      (.ok (s.store.usersNeedingRecheck pool limit), s.tookBatch (s.store.usersNeedingRecheck pool limit)) := by
    simp only [recheck, RecheckState.exec, hstore]
  rw [hexec] at hread hok ⊢
  refine ⟨List.mem_cons_self, ?_⟩
  have hhandled := recheckBatch_runs usersNeedingRecheck_nodup hread (fun e he => hok e (List.mem_cons_of_mem _ he))
    fun account hin => flaggedAtOf_batch hin
  refine hhandled.congr (fun _ => .rfl) fun account ⟨d, t, outcome, hin, hdone⟩ => ?_
  exact ⟨d, t, outcome, List.mem_cons_of_mem _ hin, hdone⟩

end Batch

/-! ## Who is waiting -/

/-- The pool's rows flagged up to a ledger. -/
def Store.flaggedUpTo (store : Store) (pool : String) (ledger : Nat) : List TrackedUser :=
  store.users.rows.filter fun user => user.pool = pool ∧ ∃ flagged ∈ user.recheckLedger, flagged ≤ ledger

/-- Those of them the batch has. -/
def Store.servedUpTo (store : Store) (pool : String) (limit ledger : Nat) : List TrackedUser :=
  (store.usersNeedingRecheck pool limit).filter fun user => user.recheckLedger.getD 0 ≤ ledger

section Waiting

variable {store before after : Store} {pool account : String} {ledger limit retryAt : Nat} {settled : String → Prop}

theorem user_of_mem {user : TrackedUser} (h : user ∈ store.users.rows) (hpool : user.pool = pool)
    (haccount : user.account = account) : store.user pool account = some user := by
  show store.users.find (pool, account) = some user
  rw [← hpool, ← haccount]
  exact find_of_mem h

theorem mem_flaggedUpTo : account ∈ (store.flaggedUpTo pool ledger).map (·.account) ↔
    ∃ flagged, store.flagOf pool account = some flagged ∧ flagged ≤ ledger := by
  simp only [Store.flaggedUpTo, List.mem_map, List.mem_filter, decide_eq_true_eq]
  constructor
  · intro ⟨user, ⟨hrow, hpool, flagged, hflag, hle⟩, haccount⟩
    refine ⟨flagged, ?_, hle⟩
    unfold Store.flagOf
    rw [user_of_mem hrow hpool haccount]
    exact hflag
  · intro ⟨flagged, hflag, hle⟩
    unfold Store.flagOf at hflag
    obtain ⟨row, hrow, hflagged⟩ := Option.bind_eq_some_iff.1 hflag
    obtain ⟨hpool, haccount⟩ := Prod.mk.injEq .. ▸ Store.user_key hrow
    exact ⟨row, ⟨Store.user_mem hrow, hpool, flagged, hflagged, hle⟩, haccount⟩

theorem flaggedUpTo_nodup : ((store.flaggedUpTo pool ledger).map (·.account)).Nodup := by
  have hpool : ∀ user ∈ store.flaggedUpTo pool ledger, user.pool = pool :=
    fun user huser => (of_decide_eq_true (List.mem_filter.1 huser).2).1
  exact accounts_nodup (store.users.distinct.sublist (List.filter_sublist.map _)) hpool

/-- The order the batch is read in. -/
theorem recheckOrder_le {a b : TrackedUser} (h : toLex (a.recheckLedger.getD 0, a.account) ≤
    toLex (b.recheckLedger.getD 0, b.account)) : a.recheckLedger.getD 0 ≤ b.recheckLedger.getD 0 := by
  rcases Prod.Lex.toLex_le_toLex.1 h with hlt | ⟨heq, -⟩
  · exact hlt.le
  · exact heq.le

/-- A batch has as many of the waiting as it can hold. -/
theorem servedUpTo_length : (store.servedUpTo pool limit ledger).length =
    min limit (store.flaggedUpTo pool ledger).length := by
  have hsorted : ((store.users.rows.filter fun user => user.pool = pool ∧ user.recheckLedger.isSome).insertionSort fun a b =>
      toLex (a.recheckLedger.getD 0, a.account) ≤ toLex (b.recheckLedger.getD 0, b.account)).Pairwise fun a b =>
      toLex (a.recheckLedger.getD 0, a.account) ≤ toLex (b.recheckLedger.getD 0, b.account) :=
    haveI : Std.Total fun a b : TrackedUser =>
      toLex (a.recheckLedger.getD 0, a.account) ≤ toLex (b.recheckLedger.getD 0, b.account) := ⟨fun a b => le_total _ _⟩
    haveI : IsTrans TrackedUser fun a b =>
      toLex (a.recheckLedger.getD 0, a.account) ≤ toLex (b.recheckLedger.getD 0, b.account) := ⟨fun _ _ _ => le_trans⟩
    List.pairwise_insertionSort _ _
  have hwaiting : (store.users.rows.filter fun user => user.pool = pool ∧ user.recheckLedger.isSome).filter
      (fun user => user.recheckLedger.getD 0 ≤ ledger) = store.flaggedUpTo pool ledger := by
    rw [List.filter_filter, Store.flaggedUpTo]
    refine List.filter_congr fun user _ => ?_
    cases hflag : user.recheckLedger with
    | none => simp
    | some flagged => simp [Bool.and_comm]
  unfold Store.servedUpTo Store.usersNeedingRecheck
  rw [Keyset.filter_take_of_pairwise (p := fun user : TrackedUser => decide (user.recheckLedger.getD 0 ≤ ledger))
      (fun a b hle hb => decide_eq_true ((recheckOrder_le hle).trans (of_decide_eq_true hb))) hsorted,
    List.length_take, ((List.perm_insertionSort _ _).filter _).length_eq, hwaiting]

/-- The flag of each row of a batch. -/
theorem batch_flagged {user : TrackedUser} (h : user ∈ store.usersNeedingRecheck pool limit) :
    ∃ flagged, user.recheckLedger = some flagged ∧ store.flagOf pool user.account = some flagged := by
  obtain ⟨hrow, hpool⟩ := usersNeedingRecheck_mem h
  have hsorted := List.mem_of_mem_take h
  rw [List.mem_insertionSort, List.mem_filter] at hsorted
  obtain ⟨flagged, hflagged⟩ := Option.isSome_iff_exists.1 (of_decide_eq_true hsorted.2).2
  refine ⟨flagged, hflagged, ?_⟩
  unfold Store.flagOf
  rw [user_of_mem hrow hpool rfl]
  exact hflagged

theorem servedUpTo_subset :
    (store.servedUpTo pool limit ledger).map (·.account) ⊆ (store.flaggedUpTo pool ledger).map (·.account) := by
  intro account hin
  obtain ⟨user, huser, haccount⟩ := List.mem_map.1 hin
  obtain ⟨huser, hle⟩ := List.mem_filter.1 huser
  obtain ⟨flagged, hflagged, hflag⟩ := batch_flagged huser
  rw [hflagged, decide_eq_true_eq] at hle
  exact mem_flaggedUpTo.2 ⟨flagged, haccount ▸ hflag, hle⟩

theorem servedUpTo_subset_batch :
    (store.servedUpTo pool limit ledger).map (·.account) ⊆ (store.usersNeedingRecheck pool limit).map (·.account) :=
  List.map_subset _ (List.filter_subset_self _)

theorem servedUpTo_nodup : ((store.servedUpTo pool limit ledger).map (·.account)).Nodup :=
  usersNeedingRecheck_nodup.sublist (List.filter_sublist.map _)

/-- A batch that can hold them all has everyone who is waiting. -/
theorem mem_batch_of_few (hfew : (store.flaggedUpTo pool ledger).length ≤ limit)
    (h : account ∈ (store.flaggedUpTo pool ledger).map (·.account)) :
    account ∈ (store.usersNeedingRecheck pool limit).map (·.account) := by
  have hsub : List.Subperm ((store.servedUpTo pool limit ledger).map (·.account))
      ((store.flaggedUpTo pool ledger).map (·.account)) := List.subperm_of_subset servedUpTo_nodup servedUpTo_subset
  have hperm := hsub.perm_of_length_le (by
    rw [List.length_map, List.length_map, servedUpTo_length]
    exact le_min hfew le_rfl)
  exact servedUpTo_subset_batch (hperm.mem_iff.2 h)

/-- A pass past a ledger leaves none of its batch waiting, and the others as
they were. -/
theorem FlagsHandled.waiting_iff (hpast : ledger < retryAt)
    (h : FlagsHandled pool retryAt settled ((before.usersNeedingRecheck pool limit).map (·.account)) before after) :
    account ∈ (after.flaggedUpTo pool ledger).map (·.account) ↔
      account ∈ (before.flaggedUpTo pool ledger).map (·.account) ∧
      account ∉ (before.usersNeedingRecheck pool limit).map (·.account) := by
  rw [mem_flaggedUpTo, mem_flaggedUpTo]
  by_cases hin : account ∈ (before.usersNeedingRecheck pool limit).map (·.account)
  · simp only [hin, not_true_eq_false, and_false, iff_false, not_exists, not_and]
    intro now hnow hle
    obtain ⟨user, huser, haccount⟩ := List.mem_map.1 hin
    obtain ⟨flagged, -, hflag⟩ := batch_flagged huser
    rw [haccount] at hflag
    rcases h.each account hin flagged hflag with hmoved | ⟨hcleared, -⟩
    · rw [hmoved] at hnow
      cases hnow
      omega
    · rw [hcleared] at hnow
      cases hnow
  · simp only [hin, not_false_eq_true, and_true, h.flag_others hin]

/-- So there are fewer waiting by a whole batch, or none. -/
theorem FlagsHandled.waiting_length (hpast : ledger < retryAt)
    (h : FlagsHandled pool retryAt settled ((before.usersNeedingRecheck pool limit).map (·.account)) before after) :
    (after.flaggedUpTo pool ledger).length ≤ (before.flaggedUpTo pool ledger).length - limit := by
  have hdisjoint : List.Disjoint ((after.flaggedUpTo pool ledger).map (·.account))
      ((before.servedUpTo pool limit ledger).map (·.account)) :=
    fun account hafter hserved => ((h.waiting_iff hpast).1 hafter).2 (servedUpTo_subset_batch hserved)
  have hall : (after.flaggedUpTo pool ledger).map (·.account) ++ (before.servedUpTo pool limit ledger).map (·.account) ⊆
      (before.flaggedUpTo pool ledger).map (·.account) := by
    intro account hin
    rcases List.mem_append.1 hin with hafter | hserved
    · exact ((h.waiting_iff hpast).1 hafter).1
    · exact servedUpTo_subset hserved
  have hlength := (List.subperm_of_subset (flaggedUpTo_nodup.append servedUpTo_nodup hdisjoint) hall).length_le
  rw [List.length_append, List.length_map, List.length_map, List.length_map, servedUpTo_length] at hlength
  omega

end Waiting

/-! ## Pass after pass -/

/-- Passes over one pool, one at each tick, none of them ended early and nothing
else writing the table. -/
inductive Passes (pool : String) (limit : Nat) (threshold : Int) :
    List LedgerTick → RecheckState → List (List (Entry RecheckCall.Answer)) → RecheckState → Prop
  | nil {s : RecheckState} : Passes pool limit threshold [] s [] s
  | cons {tick : LedgerTick} {ticks : List LedgerTick} {s mid s' : RecheckState}
      {trace : List (Entry RecheckCall.Answer)} {traces : List (List (Entry RecheckCall.Answer))}
      {r : Except StoreError Unit} :
    Runs recheck.exec (passOf pool limit threshold tick).program s trace r mid → (∀ e ∈ trace, Undisturbed e) →
    Passes pool limit threshold ticks mid traces s' →
    Passes pool limit threshold (tick :: ticks) s (trace :: traces) s'

section Passes

variable {pool : String} {limit ledger : Nat} {threshold : Int} {ticks : List LedgerTick} {s s' : RecheckState}
  {traces : List (List (Entry RecheckCall.Answer))}

/-- As many passes as there are batches waiting serve everyone waiting. -/
theorem Passes.served (h : Passes pool limit threshold ticks s traces s')
    (hticks : ticks.Pairwise fun earlier later => earlier.sequence < later.sequence)
    (hbounds : ∀ tick ∈ ticks, ledger ≤ tick.sequence ∧ tick.sequence ≤ u32Max) {count : Nat} (hcount : count ≤ ticks.length)
    (hwaiting : (s.store.flaggedUpTo pool ledger).length ≤ count * limit) {account : String}
    (haccount : account ∈ (s.store.flaggedUpTo pool ledger).map (·.account)) :
    ∃ trace ∈ traces.take count, InBatch trace pool limit account := by
  induction h generalizing count with
  | nil =>
    have hpos := List.length_pos_of_mem haccount
    rw [List.length_map] at hpos
    obtain rfl : count = 0 := by simpa using hcount
    omega
  | @cons tick ticks s mid s' trace traces r hpass hok _ ih =>
    have hpos := List.length_pos_of_mem haccount
    rw [List.length_map] at hpos
    cases count with
    | zero => omega
    | succ count =>
      obtain ⟨hread, hhandled⟩ := pass_runs hpass hok
      by_cases hin : account ∈ (s.store.usersNeedingRecheck pool limit).map (·.account)
      · exact ⟨trace, List.mem_cons_self, _, hread, hin⟩
      rw [List.pairwise_cons] at hticks
      -- the batch was full of others, so there is a pass to come, at a later tick
      have hmore : 1 ≤ count := by
        by_contra hnone
        obtain rfl : count = 0 := by omega
        exact hin (mem_batch_of_few (by omega) haccount)
      obtain ⟨later, hlater⟩ : ∃ later, later ∈ ticks := by
        rw [List.length_cons] at hcount
        exact List.exists_mem_of_length_pos (by omega)
      have hpast : ledger < tick.retryAt := by
        have hlt := hticks.1 later hlater
        have hle := (hbounds tick List.mem_cons_self).1
        have hmax := (hbounds later (List.mem_cons_of_mem _ hlater)).2
        unfold LedgerTick.retryAt
        omega
      have hleft : (mid.store.flaggedUpTo pool ledger).length ≤ count * limit := by
        have hless := hhandled.waiting_length hpast
        rw [Nat.succ_mul] at hwaiting
        omega
      have hstill := (hhandled.waiting_iff hpast).2 ⟨haccount, hin⟩
      obtain ⟨trace', htrace', hbatch⟩ := ih hticks.2 (fun tick htick => hbounds tick (List.mem_cons_of_mem _ htick))
        (Nat.le_of_succ_le_succ hcount) hleft hstill
      exact ⟨trace', List.mem_cons_of_mem _ htrace', hbatch⟩

/-- A flag is dropped only by an action that settled its borrower. -/
theorem Passes.dropped (h : Passes pool limit threshold ticks s traces s') {p account : String} {flagged : Nat}
    (hflag : s.store.flagOf p account = some flagged) :
    (∃ now, s'.store.flagOf p account = some now) ∨ p = pool ∧ ∃ trace ∈ traces, SettledIn trace pool account := by
  induction h generalizing flagged with
  | nil => exact .inl ⟨flagged, hflag⟩
  | @cons tick ticks s mid s' trace traces r hpass hok _ ih =>
    obtain ⟨-, hhandled⟩ := pass_runs hpass hok
    have hlater : ∀ {now}, mid.store.flagOf p account = some now → (∃ now, s'.store.flagOf p account = some now) ∨
        p = pool ∧ ∃ trace' ∈ trace :: traces, SettledIn trace' pool account := by
      intro now hnow
      refine (ih hnow).imp_right fun ⟨hp, trace', htrace', hsettled⟩ => ?_
      exact ⟨hp, trace', List.mem_cons_of_mem _ htrace', hsettled⟩
    by_cases hp : p = pool
    · subst hp
      by_cases hin : account ∈ (s.store.usersNeedingRecheck p limit).map (·.account)
      · rcases hhandled.each account hin flagged hflag with hmoved | ⟨-, hsettled⟩
        · exact hlater hmoved
        · exact .inr ⟨rfl, trace, List.mem_cons_self, hsettled⟩
      · rw [← hhandled.flag_others hin] at hflag
        exact hlater hflag
    · have hsame : mid.store.flagOf p account = s.store.flagOf p account := by
        unfold Store.flagOf
        rw [hhandled.others p account fun heq => absurd heq hp]
      rw [← hsame] at hflag
      exact hlater hflag

/-- **The recheck queue does not starve.** Of the borrowers flagged up to the
first tick, each is in the batch of one of as many passes as their number makes
batches, whatever became of the others; and a flag is dropped only by an action
that settled its borrower. -/
theorem recheck_serves_all (hlimit : 1 ≤ limit) (h : Passes pool limit threshold ticks s traces s')
    (hticks : ticks.Pairwise fun earlier later => earlier.sequence < later.sequence)
    (hu32 : ∀ tick ∈ ticks, tick.sequence ≤ u32Max) :
    (∀ first ∈ ticks.head?, ∀ passes, passes = ((s.store.flaggedUpTo pool first.sequence).length + limit - 1) / limit →
      passes ≤ ticks.length → ∀ user ∈ s.store.flaggedUpTo pool first.sequence,
        ∃ trace ∈ traces.take passes, InBatch trace pool limit user.account) ∧
    ∀ p account flagged, s.store.flagOf p account = some flagged →
      (∃ now, s'.store.flagOf p account = some now) ∨ p = pool ∧ ∃ trace ∈ traces, SettledIn trace pool account := by
  refine ⟨fun first hfirst passes hpasses hcount user huser => ?_, fun p account flagged hflag => h.dropped hflag⟩
  obtain ⟨rest, hrest⟩ := List.head?_eq_some_iff.1 hfirst
  have hbounds : ∀ tick ∈ ticks, first.sequence ≤ tick.sequence ∧ tick.sequence ≤ u32Max := by
    intro tick htick
    refine ⟨?_, hu32 tick htick⟩
    rw [hrest] at htick hticks
    rcases List.mem_cons.1 htick with rfl | hlater
    · exact le_rfl
    · exact ((List.pairwise_cons.1 hticks).1 tick hlater).le
  have hwaiting : (s.store.flaggedUpTo pool first.sequence).length ≤ passes * limit := by
    have hdiv := Nat.div_add_mod ((s.store.flaggedUpTo pool first.sequence).length + limit - 1) limit
    have hmod := Nat.mod_lt ((s.store.flaggedUpTo pool first.sequence).length + limit - 1) hlimit
    rw [← hpasses, Nat.mul_comm] at hdiv
    omega
  exact h.served hticks hbounds hcount hwaiting (List.mem_map_of_mem huser)

end Passes

/-- Passes in which nothing is decided and nothing fails. -/
theorem passes_undecided (pool : String) (limit : Nat) (threshold : Int) (ticks : List LedgerTick) (s : RecheckState) :
    ∃ traces s', Passes pool limit threshold ticks s traces s' := by
  induction ticks generalizing s with
  | nil => exact ⟨[], s, .nil⟩
  | cons tick ticks ih =>
    obtain ⟨trace, r, mid, hrun, hanswers⟩ := Runs.exists_of_world recheck.exec {} (passOf pool limit threshold tick).program s
    obtain ⟨traces, s', hpasses⟩ := ih mid
    refine ⟨trace :: traces, s', .cons hrun (fun e he => ?_) hpasses⟩
    obtain ⟨t, heq⟩ := hanswers e he
    rw [heq]
    cases e.1 with
    | write statement => rfl
    | needing pool limit => exact ⟨_, rfl⟩
    | below pool threshold limit after => exact ⟨_, rfl⟩
    | decide pool batch tick => exact ⟨_, rfl⟩
    | act pool account decision tick => exact fun error => nofun
    | moves pool tick => exact ⟨_, rfl⟩
    | stopping => rfl

/-- Two borrowers flagged at one ledger. -/
def twoFlagged : Store :=
  (({} : Store).upsertUser sampleUser |>.upsertUser { sampleUser with account := "OTHER" }).flagRecheck "POOL" "BORROWER" 100
    |>.flagRecheck "POOL" "OTHER" 100

/-- One at a time, both are served in two passes. -/
theorem recheck_serves_two : ∃ traces s',
    Passes "POOL" 1 0 [⟨100, 0⟩, ⟨101, 5⟩] { store := twoFlagged } traces s' ∧
    (twoFlagged.flaggedUpTo "POOL" 100).length = 2 ∧
    ∀ user ∈ twoFlagged.flaggedUpTo "POOL" 100, ∃ trace ∈ traces.take 2, InBatch trace "POOL" 1 user.account := by
  obtain ⟨traces, s', hpasses⟩ := passes_undecided "POOL" 1 0 [⟨100, 0⟩, ⟨101, 5⟩] { store := twoFlagged }
  have htwo : (twoFlagged.flaggedUpTo "POOL" 100).length = 2 := by decide +kernel
  refine ⟨traces, s', hpasses, htwo, ?_⟩
  refine (recheck_serves_all le_rfl hpasses (by decide) (by decide)).1 ⟨100, 0⟩ rfl 2 ?_ le_rfl
  show 2 = ((twoFlagged.flaggedUpTo "POOL" 100).length + 1 - 1) / 1
  rw [htwo]

end BlendLiquidator
