/-
What becomes of a recheck flag while the auctioneer decides.

The column only ever rises but for a clear, and a clear is made only after an
action that settled its borrower, at the ledger the batch read the flag under.
That number is all the clear compares: a flag raised during the decision is
told from the one the decision saw exactly if it is above it. So a flag
survives the decision it was raised during in every run in which the tracker
raises flags above those a pass is holding (`RaisesAbove`), and there is a run
in which one does not.
-/
import BlendLiquidator.Recheck

namespace BlendLiquidator

open Calls Tables

/-! ## The column after a statement -/

namespace Store

variable {store : Store} {p a pool account : String} {ledger : Nat}

theorem user_upsertUser {row : TrackedUser} : (store.upsertUser row).user p a =
    if (p, a) = row.key then
      some { row with recheckLedger := (store.user p a).bind (·.recheckLedger) }
    else store.user p a := by
  unfold Store.user upsertUser
  by_cases h : (p, a) = row.key
  · rw [if_pos h, h]
    refine find_upsert_self.trans ?_
    split
    · next old hold =>
      rw [show store.users.find row.key = some old from hold]
      rfl
    · next hold =>
      rw [show store.users.find row.key = none from hold]
      rfl
  · rw [if_neg h]
    exact find_upsert_of_ne h

theorem flagOf_upsertUser {row : TrackedUser} : (store.upsertUser row).flagOf p a = store.flagOf p a := by
  unfold flagOf
  rw [user_upsertUser]
  by_cases h : (p, a) = row.key
  · rw [if_pos h]
    rfl
  · rw [if_neg h]

theorem user_deleteUser_of_ne (h : (p, a) ≠ (pool, account)) :
    (store.deleteUser pool account).user p a = store.user p a := find_delete_of_ne h

theorem user_deleteUser_self : (store.deleteUser p a).user p a = none := find_delete_self

theorem user_key {row : TrackedUser} (h : store.user p a = some row) : row.key = (p, a) := find_key h

theorem user_flagRecheck : (store.flagRecheck pool account ledger).user p a =
    (store.user p a).map fun row => if row.key = (pool, account) then (raiseRecheck ledger).apply row else row :=
  find_update

theorem user_flagExposedTo {index : Nat} {side : Side} : (store.flagExposedTo pool index side ledger).user p a =
    (store.user p a).map fun row =>
      if row.pool = pool && row.exposed index side then (raiseRecheck ledger).apply row else row :=
  find_updateAll

theorem user_clearRecheck : (store.clearRecheck pool account ledger).user p a =
    (store.user p a).map fun row => if row.key = (pool, account) then (lowerRecheck ledger).apply row else row :=
  find_update

theorem user_mem {row : TrackedUser} (h : store.user p a = some row) : row ∈ store.users.rows := List.mem_of_find?_eq_some h

/-- A raised flag. -/
theorem recheckLedger_raise (user : TrackedUser) : ∃ now, ((raiseRecheck ledger).apply user).recheckLedger = some now ∧
    ledger ≤ now ∧ ∀ flagged, user.recheckLedger = some flagged → flagged ≤ now := by
  refine ⟨_, rfl, ?_, ?_⟩
  · cases user.recheckLedger with
    | none => exact le_refl _
    | some flagged => exact le_max_right _ _
  · intro flagged h
    rw [h]
    exact le_max_left _ _

end Store

/-- A statement that may clear a row's flag. -/
def UserStatement.Clears (pool account : String) : UserStatement → Prop
  | .clear p a _ => (p, a) = (pool, account)
  | _ => False

namespace UserStatement

variable {store : Store} {pool account : String} {flagged now : Nat}

/-- What a statement that does not clear it leaves of a row's flag. -/
theorem user_apply {statement : UserStatement} {row row' : TrackedUser} (hrow : store.user pool account = some row)
    (hclear : ¬statement.Clears pool account) (hrow' : (statement.apply store).user pool account = some row') :
    ((pool, account) ∉ statement.raises store → row'.recheckLedger = row.recheckLedger) ∧
      ∀ flagged, row.recheckLedger = some flagged → ∃ now, row'.recheckLedger = some now ∧ flagged ≤ now := by
  have hkey := Store.user_key hrow
  have hsame : row'.recheckLedger = row.recheckLedger →
      ((pool, account) ∉ statement.raises store → row'.recheckLedger = row.recheckLedger) ∧
      ∀ flagged, row.recheckLedger = some flagged → ∃ now, row'.recheckLedger = some now ∧ flagged ≤ now :=
    fun h => ⟨fun _ => h, fun flagged hflagged => ⟨flagged, h.trans hflagged, le_refl _⟩⟩
  have hraised : ∀ ledger, row' = (Store.raiseRecheck ledger).apply row →
      ∀ flagged, row.recheckLedger = some flagged → ∃ now, row'.recheckLedger = some now ∧ flagged ≤ now := by
    rintro ledger rfl flagged hflagged
    obtain ⟨now, hnow, -, hle⟩ := Store.recheckLedger_raise row
    exact ⟨now, hnow, hle flagged hflagged⟩
  cases statement with
  | upsert new =>
    have hflag : (store.upsertUser new).flagOf pool account = store.flagOf pool account := Store.flagOf_upsertUser
    unfold Store.flagOf at hflag
    simp only [UserStatement.apply] at hrow'
    rw [hrow', hrow] at hflag
    exact hsame hflag
  | delete p a =>
    simp only [UserStatement.apply] at hrow'
    by_cases h : (pool, account) = (p, a)
    · cases h
      rw [Store.user_deleteUser_self] at hrow'
      cases hrow'
    · rw [Store.user_deleteUser_of_ne h, hrow] at hrow'
      cases hrow'
      exact hsame rfl
  | flag p a ledger =>
    simp only [UserStatement.apply, Store.user_flagRecheck, hrow, Option.map_some, Option.some.injEq, hkey] at hrow'
    by_cases h : (pool, account) = (p, a)
    · rw [if_pos h] at hrow'
      exact ⟨fun hnot => absurd (by simp [raises, h]) hnot, hraised ledger hrow'.symm⟩
    · rw [if_neg h] at hrow'
      exact hsame (by rw [hrow'])
  | flagExposed p index side ledger =>
    simp only [UserStatement.apply, Store.user_flagExposedTo, hrow, Option.map_some, Option.some.injEq] at hrow'
    by_cases h : (row.pool = p && row.exposed index side) = true
    · rw [if_pos h] at hrow'
      refine ⟨fun hnot => absurd ?_ hnot, hraised ledger hrow'.symm⟩
      rw [← hkey]
      exact List.mem_map_of_mem (List.mem_filter.2 ⟨Store.user_mem hrow, h⟩)
    · rw [if_neg h] at hrow'
      exact hsame (by rw [hrow'])
  | clear p a flaggedAt =>
    have hne : row.key ≠ (p, a) := fun h => hclear (h.symm.trans hkey)
    simp only [UserStatement.apply, Store.user_clearRecheck, hrow, Option.map_some, Option.some.injEq,
      if_neg hne] at hrow'
    exact hsame (by rw [hrow'])

end UserStatement

/-! ## A flag under a decision -/

/-- What a pass may count on for a row it read under `flaggedAt`, if the row is
not deleted: a flag no lower, and above it once the row was flagged again. -/
def Marked (s : RecheckState) (pool account : String) (flaggedAt : Nat) : Prop :=
  (∀ store ∈ s.sinceBatch.stores, (store.user pool account).isSome) →
    ∃ now, s.store.flagOf pool account = some now ∧ flaggedAt ≤ now ∧
      ((pool, account) ∈ s.sinceBatch.raised → flaggedAt < now)

/-- The flags the tracker raises are above those a pass is holding: a row that
is being decided is flagged above the ledger the batch read it under, unless
its flag is above it already. -/
def RaisesAbove (s : RecheckState) : TrackerWrite → Prop
  | .flag pool account ledger => ∀ user ∈ s.held, user.key = (pool, account) →
      ∀ flaggedAt, user.recheckLedger = some flaggedAt →
        flaggedAt < ledger ∨ ∃ now, s.store.flagOf pool account = some now ∧ flaggedAt < now
  | .upsert _ | .delete _ _ => True

section Marked

variable {s : RecheckState} {statement : UserStatement} {pool account : String} {flaggedAt : Nat}

theorem flagOf_some {store : Store} {now : Nat} (h : store.flagOf pool account = some now) :
    ∃ row, store.user pool account = some row ∧ row.recheckLedger = some now :=
  Option.bind_eq_some_iff.1 h

/-- Any statement but a clear of the row leaves it marked, if what it raises is
above. -/
theorem Marked.wrote (h : Marked s pool account flaggedAt) (hclear : ¬statement.Clears pool account)
    (habove : (pool, account) ∈ statement.raises s.store → ∀ now,
      (statement.apply s.store).flagOf pool account = some now → flaggedAt < now) :
    Marked (s.wrote statement) pool account flaggedAt := by
  intro hthere
  have hthere' : ∀ store ∈ s.sinceBatch.stores, (store.user pool account).isSome :=
    fun store hstore => hthere store (List.mem_append_left _ hstore)
  obtain ⟨row', hrow'⟩ := Option.isSome_iff_exists.1
    (hthere (statement.apply s.store) (List.mem_append_right _ List.mem_cons_self))
  obtain ⟨now, hnow, hle, hlt⟩ := h hthere'
  obtain ⟨row, hrow, hflag⟩ := flagOf_some hnow
  obtain ⟨-, hrise⟩ := UserStatement.user_apply hrow hclear hrow'
  obtain ⟨now', hnow', hle'⟩ := hrise now hflag
  have hafter : (statement.apply s.store).flagOf pool account = some now' := by
    unfold Store.flagOf
    rw [hrow']
    exact hnow'
  refine ⟨now', hafter, by omega, fun hraised => ?_⟩
  rcases List.mem_append.1 hraised with hraised | hraised
  · have := hlt hraised
    omega
  · exact habove hraised now' hafter

/-- A flag the tracker raises above what is held leaves every held row marked. -/
theorem Marked.tracker {label : TrackerWrite} {user : TrackedUser} (hok : RaisesAbove s label)
    (hheld : user ∈ s.held) (hkey : user.key = (pool, account)) (hflag : user.recheckLedger = some flaggedAt)
    (h : Marked s pool account flaggedAt) : Marked (s.wrote label.statement) pool account flaggedAt := by
  refine h.wrote ?_ fun hraised now hnow => ?_
  · cases label <;> exact id
  · cases label with
    | upsert row => cases hraised
    | delete p a => cases hraised
    | flag p a ledger =>
      have heq : (pool, account) = (p, a) := List.mem_singleton.1 hraised
      cases heq
      obtain ⟨row', hrow', hnow'⟩ := flagOf_some hnow
      simp only [TrackerWrite.statement, UserStatement.apply, Store.user_flagRecheck] at hrow'
      obtain ⟨row, hrow, rfl⟩ := Option.map_eq_some_iff.1 hrow'
      rw [if_pos (Store.user_key hrow)] at hnow'
      obtain ⟨top, htop, hledger, hold⟩ := @Store.recheckLedger_raise ledger row
      rw [hnow'] at htop
      cases htop
      rcases hok user hheld hkey flaggedAt hflag with habove | ⟨before, hbefore, habove⟩
      · omega
      · obtain ⟨row'', hrow'', hbefore'⟩ := flagOf_some hbefore
        rw [hrow] at hrow''
        cases hrow''
        have := hold before hbefore'
        omega

/-- A marked flag that was raised again is not the one the clear names. -/
theorem Marked.survives (h : Marked s pool account flaggedAt) (hraised : (pool, account) ∈ s.sinceBatch.raised)
    (hthere : ∀ store ∈ s.sinceBatch.stores, (store.user pool account).isSome) :
    ((s.wrote (.clear pool account flaggedAt)).store.flagOf pool account).isSome := by
  obtain ⟨now, hnow, -, hlt⟩ := h hthere
  obtain ⟨row, hrow, hflag⟩ := flagOf_some hnow
  have hne : row.recheckLedger ≠ some flaggedAt := by
    rw [hflag, ne_eq, Option.some.injEq]
    have := hlt hraised
    omega
  show ((s.store.clearRecheck pool account flaggedAt).flagOf pool account).isSome
  unfold Store.flagOf
  rw [Store.user_clearRecheck, hrow, Option.map_some, if_pos (Store.user_key hrow), Option.bind_some]
  show (if row.recheckLedger = some flaggedAt then { row with recheckLedger := none } else row).recheckLedger.isSome
  rw [if_neg hne, hflag]
  rfl

end Marked

/-! ## The programs -/

variable {ok : RecheckState → TrackerWrite → Prop}

/-- Every step the tracker may take raises above what is held. -/
def Careful (ok : RecheckState → TrackerWrite → Prop) : Prop := ∀ s label, ok s label → RaisesAbove s label

/-- Before a clear, the last action settled the borrower, and the row is as the
pass read it. -/
def BeforeClear (ok : RecheckState → TrackerWrite → Prop) : RecheckCall → RecheckState → Prop
  | .write (.clear pool account flaggedAt), s =>
    (∃ outcome, s.acted = some (account, .ok outcome) ∧ outcome.settled = true) ∧
      (Careful ok → Marked s pool account flaggedAt)
  | _, _ => True

/-- What is left to decide of a batch is held and marked. -/
def Deciding (ok : RecheckState → TrackerWrite → Prop) (pool : String) (batch : List TrackedUser)
    (left : List String) (s : RecheckState) : Prop :=
  Careful ok → ∀ user ∈ batch, user.account ∈ left → user ∈ s.held ∧ user.pool = pool ∧
    ∀ flaggedAt, user.recheckLedger = some flaggedAt → Marked s pool user.account flaggedAt

theorem Deciding.stable {pool : String} {batch : List TrackedUser} {left : List String} :
    Stable (recheck.sharing ok) (Deciding ok pool batch left) := by
  rintro s s' h ⟨label, hok, rfl⟩ hcareful user huser hleft
  obtain ⟨hheld, hpool, hmarked⟩ := h hcareful user huser hleft
  have hheld' : user ∈ (s.wrote label.statement).held := by
    cases label <;> exact hheld
  refine ⟨hheld', hpool, fun flaggedAt hflag => ?_⟩
  exact (hmarked flaggedAt hflag).tracker (hcareful s label hok) hheld (by rw [← hpool]; rfl) hflag

/-- A statement of the pass's own on another row of the pool. -/
theorem Deciding.wrote {pool account : String} {batch : List TrackedUser} {left : List String} {s : RecheckState}
    {statement : UserStatement} (h : Deciding ok pool batch left s) (hleft : account ∉ left)
    (hstatement : (∃ ledger, statement = .flag pool account ledger) ∨ ∃ at', statement = .clear pool account at') :
    Deciding ok pool batch left (s.wrote statement) := by
  intro hcareful user huser hin
  obtain ⟨hheld, hpool, hmarked⟩ := h hcareful user huser hin
  have hne : user.account ≠ account := fun heq => hleft (heq ▸ hin)
  refine ⟨?_, hpool, fun flaggedAt hflag => (hmarked flaggedAt hflag).wrote ?_ fun hraised => ?_⟩
  · rcases hstatement with ⟨ledger, rfl⟩ | ⟨at', rfl⟩
    · exact hheld
    · exact List.mem_filter.2 ⟨hheld, by simp [TrackedUser.key, hne]⟩
  · rcases hstatement with ⟨ledger, rfl⟩ | ⟨at', rfl⟩
    · exact id
    · intro heq
      exact hne (Prod.mk.inj heq).2.symm
  · rcases hstatement with ⟨ledger, rfl⟩ | ⟨at', rfl⟩
    · exact absurd (Prod.mk.inj (List.mem_singleton.1 hraised)).2 hne
    · cases hraised

theorem Deciding.mono {pool : String} {batch : List TrackedUser} {left left' : List String} {s : RecheckState}
    (h : Deciding ok pool batch left s) (hsub : left' ⊆ left) : Deciding ok pool batch left' s :=
  fun hcareful user huser hin => h hcareful user huser (hsub hin)

/-- One statement: what it leaves, executed or not. -/
theorem write_beside {I J : RecheckState → Prop} {P : RecheckCall → RecheckState → Prop} {s : RecheckState}
    {statement : UserStatement} (hI : Stable (recheck.sharing ok) I) (hs : I s)
    (hP : ∀ t, I t → P (.write statement) t) (hskip : ∀ t, I t → J t) (hwrote : ∀ t, I t → J (t.wrote statement)) :
    Beside (recheck.sharing ok) P (fun _ => J) (write statement) s := by
  refine Beside.bind_call hI hs fun t ht => ⟨hP t ht, fun w => Beside.lift ?_⟩
  show J (if w.store.isOk || w.executed then t.wrote statement else t)
  by_cases hdone : (w.store.isOk || w.executed) = true
  · rw [if_pos hdone]
    exact hwrote t ht
  · rw [if_neg hdone]
    exact hskip t ht

theorem stable_true : Stable (recheck.sharing ok) fun _ => True := fun _ _ => trivial

/-- A flag of the pass's own, on a row it has no more to do with. -/
theorem moveFlagForward_beside {pool account : String} {flaggedAt : Option Nat} {tick : LedgerTick}
    {batch : List TrackedUser} {left : List String} {s : RecheckState} (h : Deciding ok pool batch left s)
    (hleft : account ∉ left) :
    Beside (recheck.sharing ok) (BeforeClear ok) (fun _ => Deciding ok pool batch left)
      (moveFlagForward pool account flaggedAt tick) s :=
  write_beside Deciding.stable h (fun _ _ => trivial) (fun _ => id)
    fun _ ht => ht.wrote hleft (.inl ⟨_, rfl⟩)

theorem flaggedAtOf_some {batch : List TrackedUser} {account : String} {flaggedAt : Nat}
    (h : flaggedAtOf batch account = some flaggedAt) :
    ∃ user ∈ batch, user.account = account ∧ user.recheckLedger = some flaggedAt := by
  obtain ⟨user, hfind, hflag⟩ := Option.bind_eq_some_iff.1 h
  exact ⟨user, List.mem_of_find?_eq_some hfind, by simpa using List.find?_some hfind, hflag⟩

/-- A row acted on, with what the action answered. -/
def ActedOn (ok : RecheckState → TrackerWrite → Prop) (pool : String) (batch : List TrackedUser) (account : String)
    (rest : List String) (acted : Except AuctioneerError ActOutcome) (s : RecheckState) : Prop :=
  Deciding ok pool batch (account :: rest) s ∧ s.acted = some (account, acted)

theorem settleFlag_beside {pool account : String} {tick : LedgerTick} {batch : List TrackedUser}
    {rest : List String} {acted : Except AuctioneerError ActOutcome} {s : RecheckState}
    (h : ActedOn ok pool batch account rest acted s) (hrest : account ∉ rest) :
    Beside (recheck.sharing ok) (BeforeClear ok) (fun _ => Deciding ok pool batch rest)
      (settleFlag pool account (flaggedAtOf batch account) tick acted) s := by
  have hleft : Deciding ok pool batch rest s := h.1.mono (List.subset_cons_self _ _)
  have hforward : Beside (recheck.sharing ok) (BeforeClear ok) (fun _ => Deciding ok pool batch rest)
      (moveFlagForward pool account (flaggedAtOf batch account) tick) s := moveFlagForward_beside hleft hrest
  unfold settleFlag
  cases acted with
  | error error =>
    cases error with
    | store error => exact hleft
    | chain error => exact hforward
    | math error => exact hforward
    | queue error => exact hforward
  | ok outcome =>
    by_cases hsettled : outcome.settled = true
    · simp only [hsettled, if_true]
      cases hflag : flaggedAtOf batch account with
      | none => exact hleft
      | some flaggedAt =>
        obtain ⟨user, huser, rfl, hflagged⟩ := flaggedAtOf_some hflag
        have hstable : Stable (recheck.sharing ok) (ActedOn ok pool batch user.account rest (.ok outcome)) := by
          rintro t t' ⟨hdeciding, hacted⟩ ⟨label, hok, rfl⟩
          exact ⟨Deciding.stable hdeciding ⟨label, hok, rfl⟩, hacted⟩
        refine write_beside hstable h (fun t ht => ⟨⟨outcome, ht.2, hsettled⟩, fun hcareful => ?_⟩) (fun t ht => ?_)
          fun t ht => ?_
        · exact (ht.1 hcareful user huser List.mem_cons_self).2.2 flaggedAt hflagged
        · exact ht.1.mono (List.subset_cons_self _ _)
        · exact (ht.1.mono (List.subset_cons_self _ _)).wrote hrest (.inr ⟨_, rfl⟩)
    · simp only [hsettled]
      exact hforward

theorem actOn_beside {pool : String} {tick : LedgerTick} {batch : List TrackedUser} :
    ∀ {decisions : List (String × Decision)} {s : RecheckState}, (decisions.map Prod.fst).Nodup →
      Deciding ok pool batch (decisions.map Prod.fst) s →
      Beside (recheck.sharing ok) (BeforeClear ok) (fun _ _ => True) (actOn pool (flaggedAtOf batch) tick decisions) s
  | [], _, _, _ => trivial
  | (account, decision) :: rest, s, hnodup, h => by
    rw [List.map_cons, List.nodup_cons] at hnodup
    unfold actOn
    refine Beside.bind_call Deciding.stable h fun t ht => ⟨trivial, fun w => ?_⟩
    show Beside _ _ _ (if w.stopping = true then _ else _) t
    by_cases hstop : w.stopping = true
    · rw [if_pos hstop]
      exact trivial
    · rw [if_neg hstop]
      refine Beside.bind_call Deciding.stable ht fun t' ht' => ⟨trivial, fun w' => ?_⟩
      have hacted : ActedOn ok pool batch account (rest.map Prod.fst) w'.acted
          { t' with acted := some (account, w'.acted) } := ⟨ht', rfl⟩
      exact (settleFlag_beside hacted hnodup.1).bind (fun _ u hu => actOn_beside hnodup.2 hu) fun _ _ _ => trivial

/-! ### A batch -/

/-- The rows of a batch are the pool's, each of them once. -/
theorem usersNeedingRecheck_mem {store : Store} {pool : String} {limit : Nat} {user : TrackedUser}
    (h : user ∈ store.usersNeedingRecheck pool limit) : user ∈ store.users.rows ∧ user.pool = pool := by
  have hsorted := List.mem_of_mem_take h
  rw [List.mem_insertionSort, List.mem_filter] at hsorted
  simp only [decide_eq_true_eq] at hsorted
  exact ⟨hsorted.1, hsorted.2.1⟩

/-- One pool's rows have one account each. -/
theorem accounts_nodup {rows : List TrackedUser} {pool : String} (hkeys : (rows.map TrackedUser.key).Nodup)
    (hpool : ∀ user ∈ rows, user.pool = pool) : (rows.map (·.account)).Nodup := by
  rw [List.nodup_map_iff_inj_on (List.Nodup.of_map _ hkeys)]
  intro user huser other hother heq
  exact List.inj_on_of_nodup_map hkeys huser hother (Prod.ext ((hpool user huser).trans (hpool other hother).symm) heq)

theorem usersNeedingRecheck_nodup {store : Store} {pool : String} {limit : Nat} :
    ((store.usersNeedingRecheck pool limit).map (·.account)).Nodup := by
  have hkeys : ((store.usersNeedingRecheck pool limit).map TrackedUser.key).Nodup := by
    refine List.Nodup.sublist ((List.take_sublist _ _).map _) ?_
    refine (List.Perm.nodup_iff ((List.perm_insertionSort _ _).map _)).2 ?_
    exact store.users.distinct.sublist (List.filter_sublist.map _)
  exact accounts_nodup hkeys fun _ huser => (usersNeedingRecheck_mem huser).2

/-- Right after it is read, a whole batch is held and marked. -/
theorem tookBatch_deciding {s : RecheckState} {pool : String} {limit : Nat} :
    Deciding ok pool (s.store.usersNeedingRecheck pool limit)
      ((s.store.usersNeedingRecheck pool limit).map (·.account))
      (s.tookBatch (s.store.usersNeedingRecheck pool limit)) := by
  intro _ user huser _
  obtain ⟨hrow, rfl⟩ := usersNeedingRecheck_mem huser
  refine ⟨huser, rfl, fun flaggedAt hflag _ => ⟨flaggedAt, ?_, le_refl _, nofun⟩⟩
  show (s.store.user user.pool user.account).bind _ = _
  rw [show s.store.user user.pool user.account = some user from find_of_mem hrow]
  exact hflag

theorem decisionsOf_accounts {batch : List TrackedUser} {decided : String → Option Decision} :
    ((decisionsOf batch decided).map Prod.fst).Sublist (batch.map (·.account)) ∧
      ∀ account ∈ (decisionsOf batch decided).map Prod.fst, (decided account).isSome := by
  induction batch with
  | nil => exact ⟨List.Sublist.refl _, nofun⟩
  | cons user batch ih =>
    unfold decisionsOf at ih ⊢
    rw [List.filterMap_cons]
    cases hdecided : decided user.account with
    | none => exact ⟨ih.1.cons _, ih.2⟩
    | some decision =>
      refine ⟨ih.1.cons_cons _, fun account haccount => ?_⟩
      rcases List.mem_cons.1 haccount with rfl | haccount
      · rw [hdecided]
        rfl
      · exact ih.2 account haccount

theorem undecidedOf_mem {batch : List TrackedUser} {decided : String → Option Decision} {account : String}
    (h : account ∈ undecidedOf batch decided) : decided account = none := by
  unfold undecidedOf at h
  rw [List.mem_insertionSort, List.mem_map] at h
  obtain ⟨user, huser, rfl⟩ := h
  simpa using (List.mem_filter.1 huser).2

/-- One of the flags moved forward before anything is acted on. -/
theorem moved_beside {pool account : String} {tick : LedgerTick} {batch : List TrackedUser} {rest : List String}
    {decided : String → Option Decision} {s : RecheckState}
    (hdecided : ∀ account ∈ (decisionsOf batch decided).map Prod.fst, (decided account).isSome)
    (hnone : ∀ a ∈ account :: rest, decided a = none)
    (hs : Deciding ok pool batch ((decisionsOf batch decided).map Prod.fst) s) :
    Beside (recheck.sharing ok) (BeforeClear ok) (fun r s => ∀ u, r = .ok u → (∀ a ∈ rest, decided a = none) ∧
      Deciding ok pool batch ((decisionsOf batch decided).map Prod.fst) s)
      (moveFlagForward pool account (flaggedAtOf batch account) tick) s := by
  have hnot : account ∉ (decisionsOf batch decided).map Prod.fst := by
    intro hin
    have hsome := hdecided account hin
    rw [hnone account List.mem_cons_self] at hsome
    cases hsome
  refine (moveFlagForward_beside hs hnot).conseq (fun _ _ => id) fun r t ht u _ => ?_
  exact ⟨fun a ha => hnone a (List.mem_cons_of_mem _ ha), ht⟩

theorem recheckBatch_beside {pool : String} {tick : LedgerTick} {batch : List TrackedUser} {s : RecheckState}
    (hnodup : (batch.map (·.account)).Nodup) (h : Deciding ok pool batch (batch.map (·.account)) s) :
    Beside (recheck.sharing ok) (BeforeClear ok) (fun _ _ => True) (recheckBatch pool batch tick) s := by
  unfold recheckBatch
  by_cases hempty : batch.isEmpty = true
  · rw [if_pos hempty]
    exact trivial
  · rw [if_neg hempty]
    refine Beside.bind_call Deciding.stable h fun t ht => ⟨trivial, fun w => ?_⟩
    obtain ⟨store, executed, decided, acted, moves, stopping⟩ := w
    cases decided with
    | error error =>
      cases error with
      | store error => exact trivial
      | chain error => exact trivial
      | math error => exact trivial
      | queue error => exact trivial
    | ok decided =>
      obtain ⟨hsub, hdecided⟩ := @decisionsOf_accounts batch decided
      -- The flags moved forward are those of rows with no decision to come.
      refine Beside.bind (Beside.forM (J := fun rest s => (∀ a ∈ rest, decided a = none) ∧
          Deciding ok pool batch ((decisionsOf batch decided).map Prod.fst) s)
        (fun account rest s hs => moved_beside hdecided hs.1 hs.2) ?_) (fun a u hu => ?_) fun _ _ _ => trivial
      · exact ⟨fun _ => undecidedOf_mem, ht.mono hsub.subset⟩
      · exact actOn_beside (hnodup.sublist hsub) (hu a rfl).2

/-! ### A turn -/

def RecheckCall.clears : RecheckCall → Bool
  | .write (.clear _ _ _) => true
  | _ => false

def RecheckCall.reads : RecheckCall → Bool
  | .below _ _ _ _ => true
  | _ => false

theorem write_only {N : RecheckCall → Prop} {statement : UserStatement} (h : N (.write statement)) :
    Only N (write statement) := Only.bind_call h fun _ => Only.lift

theorem oracle_only (turn : Turn) : Only (fun o => o.clears = false ∧ o.reads = false) turn.oracle := by
  unfold Turn.oracle
  by_cases hdue : turn.oracleDue = true
  · rw [if_pos hdue]
    unfold scanOracle
    refine Only.bind_call ⟨rfl, rfl⟩ fun answer => ?_
    cases answer with
    | ok moves => exact Only.forM fun x => write_only ⟨rfl, rfl⟩
    | error error => cases error <;> exact trivial
  · rw [if_neg hdue]
    exact trivial

theorem scanPages_only {pool : String} {threshold : Int} {ledger limit fuel : Nat} :
    ∀ {after : Option (Int ×ₗ String)} {flagged : Nat},
      Only (fun o => o.clears = false) (scanPages pool threshold ledger limit fuel after flagged) := by
  induction fuel with
  | zero => exact trivial
  | succ fuel ih =>
    intro after flagged
    unfold scanPages
    refine Only.bind_call rfl fun stopping => ?_
    by_cases hstop : stopping = true
    · rw [if_pos hstop]
      exact trivial
    · rw [if_neg hstop]
      refine Only.bind_call rfl fun answer => Only.lift.bind fun page => ?_
      cases page.getLast? with
      | none => exact trivial
      | some last =>
        refine Only.bind (Only.forM fun user => ?_) fun _ => ih
        exact write_only rfl

theorem scan_only (turn : Turn) : Only (fun o => o.clears = false) turn.scan := by
  unfold Turn.scan
  by_cases hdue : turn.fullDue = true
  · rw [if_pos hdue]
    exact scanPages_only.bind fun _ => trivial
  · rw [if_neg hdue]
    exact trivial

theorem beforeClear_of_not {o : RecheckCall} (s : RecheckState) (h : o.clears = false) : BeforeClear ok o s := by
  cases o with
  | write statement =>
    cases statement with
    | clear => cases h
    | upsert | delete | flag | flagExposed => trivial
  | needing | below | decide | act | moves | stopping => trivial

theorem program_beside (turn : Turn) (s : RecheckState) :
    Beside (recheck.sharing ok) (BeforeClear ok) (fun _ _ => True) turn.program s := by
  unfold Turn.program
  refine ((oracle_only turn).beside fun o s h => beforeClear_of_not s h.1).bind (fun _ t _ => ?_) fun _ _ _ => trivial
  refine ((scan_only turn).beside fun o s h => beforeClear_of_not s h).bind (fun goes t' _ => ?_)
    fun _ _ _ => trivial
  cases goes with
  | false => exact trivial
  | true =>
    refine Beside.bind_call stable_true trivial fun u _ => ⟨trivial, fun w => ?_⟩
    obtain ⟨store, executed, decided, acted, moves, stopping⟩ := w
    cases store with
    | error error => exact trivial
    | ok _ => exact recheckBatch_beside usersNeedingRecheck_nodup tookBatch_deciding

/-! ## Runs -/

abbrev RecheckSystem := Joint RecheckCall RecheckCall.Answer StoreError RecheckState

/-- Reached from a table with no turn under way, by steps of the tracker's that
`ok` admits and any of the auctioneer's. -/
def Rechecked (ok : RecheckState → TrackerWrite → Prop) (store : Store) (j : RecheckSystem) : Prop :=
  Reaches recheck.step (Machine.Holding ok) ⟨{ store }, none⟩ j

/-- A pass is about to clear a row's flag. -/
def AboutToClear (j : RecheckSystem) (pool account : String) (flaggedAt : Nat) : Prop :=
  ∃ next, j.task = some (.op (.write (.clear pool account flaggedAt)) next)

/-- A flag was raised on the row since the pass read its batch. -/
def RaisedMeanwhile (j : RecheckSystem) (pool account : String) : Prop := (pool, account) ∈ j.state.sinceBatch.raised

/-- The row has been there since the pass read its batch. -/
def KeptMeanwhile (j : RecheckSystem) (pool account : String) : Prop :=
  ∀ store ∈ j.state.sinceBatch.stores, (store.user pool account).isSome

theorem Rechecked.beforeClear {store : Store} {j : RecheckSystem} (h : Rechecked ok store j) {pool account : String}
    {flaggedAt : Nat} (hclear : AboutToClear j pool account flaggedAt) :
    (∃ outcome, j.state.acted = some (account, .ok outcome) ∧ outcome.settled = true) ∧
      (Careful ok → Marked j.state pool account flaggedAt) := by
  have hstart : recheck.Standing ok (BeforeClear ok) (fun _ => True) ⟨{ store }, none⟩ := trivial
  have hstands := Machine.reaches_standing stable_true (fun task s _ => program_beside task s) hstart h
  obtain ⟨state, task⟩ := j
  obtain ⟨next, rfl⟩ := hclear
  exact hstands.asserted

/-- Between clears a flag only moves forward. -/
theorem step_flag_le (j : RecheckSystem) (move : Move TrackerWrite Turn RecheckWorld) {pool account : String}
    {row row' : TrackedUser} {flagged : Nat} (hrow : j.state.store.user pool account = some row)
    (hrow' : (recheck.step j move).state.store.user pool account = some row')
    (hclear : ∀ flaggedAt, ¬AboutToClear j pool account flaggedAt) (hflag : row.recheckLedger = some flagged) :
    ∃ now, row'.recheckLedger = some now ∧ flagged ≤ now := by
  have hsame : (recheck.step j move).state.store = j.state.store →
      ∃ now, row'.recheckLedger = some now ∧ flagged ≤ now := by
    intro heq
    rw [heq, hrow] at hrow'
    cases hrow'
    exact ⟨flagged, hflag, le_refl _⟩
  obtain ⟨s, task⟩ := j
  cases move with
  | begins turn =>
    apply hsame
    cases task <;> rfl
  | other label =>
    have hnot : ¬label.statement.Clears pool account := by
      cases label <;> exact id
    exact (UserStatement.user_apply hrow hnot hrow').2 flagged hflag
  | answers w =>
    cases task with
    | none => exact hsame rfl
    | some program =>
      cases program with
      | ret a => exact hsame rfl
      | fail e => exact hsame rfl
      | op o next =>
        cases o with
        | needing p limit =>
          obtain ⟨answer, executed, decided, acted, moves, stopping⟩ := w
          cases answer <;> exact hsame rfl
        | below p threshold limit after =>
          obtain ⟨answer, executed, decided, acted, moves, stopping⟩ := w
          cases answer <;> exact hsame rfl
        | decide p batch tick => exact hsame rfl
        | act p a decision tick => exact hsame rfl
        | moves p tick => exact hsame rfl
        | stopping => exact hsame rfl
        | write statement =>
          have hstore : (recheck.step ⟨s, some (.op (.write statement) next)⟩ (.answers w)).state =
              if w.store.isOk || w.executed then s.wrote statement else s := rfl
          by_cases hdone : (w.store.isOk || w.executed) = true
          · rw [hstore, if_pos hdone] at hrow'
            have hnot : ¬statement.Clears pool account := by
              intro hclears
              cases statement with
              | clear p a flaggedAt =>
                cases hclears
                exact hclear flaggedAt ⟨next, rfl⟩
              | upsert row => exact hclears
              | delete p a => exact hclears
              | flag p a ledger => exact hclears
              | flagExposed p index side ledger => exact hclears
            exact (UserStatement.user_apply hrow hnot hrow').2 flagged hflag
          · refine hsame ?_
            rw [hstore, if_neg hdone]

/-- A flag raised during a decision survives it in every run in which the
tracker raises flags above those a pass holds. In every run a flag is cleared
only after an action that settled its borrower, and between clears it only
moves forward. -/
theorem flags_survive (store : Store) (j : RecheckSystem) (pool account : String) :
    (Rechecked RaisesAbove store j → ∀ flaggedAt, AboutToClear j pool account flaggedAt →
      RaisedMeanwhile j pool account → KeptMeanwhile j pool account →
      ∀ w, ((recheck.step j (.answers w)).state.store.flagOf pool account).isSome) ∧
    (Rechecked (fun _ _ => True) store j →
      (∀ flaggedAt, AboutToClear j pool account flaggedAt →
        ∃ outcome, j.state.acted = some (account, .ok outcome) ∧ outcome.settled = true) ∧
      ∀ move row row' flagged, j.state.store.user pool account = some row →
        (recheck.step j move).state.store.user pool account = some row' →
        (∀ flaggedAt, ¬AboutToClear j pool account flaggedAt) → row.recheckLedger = some flagged →
        ∃ now, row'.recheckLedger = some now ∧ flagged ≤ now) := by
  constructor
  · intro hrun flaggedAt hclear hraised hkept w
    have hmarked := (hrun.beforeClear hclear).2 fun _ _ => id
    obtain ⟨s, task⟩ := j
    obtain ⟨next, rfl⟩ := hclear
    show ((if w.store.isOk || w.executed then s.wrote _ else s).store.flagOf pool account).isSome
    by_cases hdone : (w.store.isOk || w.executed) = true
    · rw [if_pos hdone]
      exact hmarked.survives hraised hkept
    · rw [if_neg hdone]
      obtain ⟨now, hnow, -⟩ := hmarked hkept
      rw [hnow]
      rfl
  · intro hrun
    refine ⟨fun flaggedAt hclear => (hrun.beforeClear hclear).1, ?_⟩
    intro move row row' flagged hrow hrow' hclear hflag
    exact step_flag_le j move hrow hrow' hclear hflag

/-! ### A flag raised above the one decided, and one that is not -/

def sampleUser : TrackedUser where
  pool := "POOL"
  account := "BORROWER"
  healthFactor := 9000000
  collateral := ∅
  liabilities := ∅
  updatedLedger := 100
  recheckLedger := none

/-- The pool's tick raises a flag; the auctioneer is refused, and moves it one
past its own tick; the next pass reads it there. -/
def readAgain : List (Move TrackerWrite Turn RecheckWorld) :=
  [.other (.upsert sampleUser), .other (.flag "POOL" "BORROWER" 100),
   .begins { pool := "POOL", tick := ⟨100, 0⟩, limit := 10, threshold := 0 },
   .answers {}, .answers { decided := .ok fun _ => some .badDebt }, .answers {}, .answers { acted := .ok .refused },
   .answers {},
   .begins { pool := "POOL", tick := ⟨101, 0⟩, limit := 10, threshold := 0 }, .answers {}]

/-- The pool's own tick of `ledger` comes before the pass acts. -/
def flaggedDuring (ledger : Nat) : List (Move TrackerWrite Turn RecheckWorld) :=
  readAgain ++
    [.other (.upsert { sampleUser with updatedLedger := ledger }), .other (.flag "POOL" "BORROWER" ledger),
     .answers { decided := .ok fun _ => some (.skip .healthy) }, .answers {},
     .answers { acted := .ok (.skipped .healthy) }]

def afterFlagged (ledger : Nat) : RecheckSystem := (flaggedDuring ledger).foldl recheck.step ⟨{}, none⟩

/-- Flagged above the ledger the pass read, the row stays flagged. -/
theorem flags_survive_above :
    ((recheck.step (afterFlagged 102) (.answers {})).state.store.flagOf "POOL" "BORROWER").isSome := by
  have hrun : Rechecked RaisesAbove {} (afterFlagged 102) := by
    refine Reaches.run .refl ⟨trivial, ?_, trivial, trivial, trivial, trivial, trivial, trivial, trivial, trivial,
      trivial, ?_, trivial, trivial, trivial, trivial⟩
    · intro user huser
      cases huser
    · intro user huser _ flaggedAt hflag
      have hread : user.recheckLedger ∈ [some 101] := List.mem_map_of_mem huser
      rw [hflag, List.mem_singleton, Option.some.injEq] at hread
      left
      omega
  refine (flags_survive {} (afterFlagged 102) "POOL" "BORROWER").1 hrun 101 ⟨_, rfl⟩ ?_ ?_ {}
  · exact List.mem_singleton.2 rfl
  · exact List.all_eq_true.1 rfl

/-- The pool's own tick is at the very ledger the flag was moved to: its flag
goes with the one that was decided. -/
theorem flag_lost_in_decision : ∃ j, Rechecked (fun _ _ => True) {} j ∧ AboutToClear j "POOL" "BORROWER" 101 ∧
    RaisedMeanwhile j "POOL" "BORROWER" ∧ KeptMeanwhile j "POOL" "BORROWER" ∧
    (recheck.step j (.answers {})).state.store.flagOf "POOL" "BORROWER" = none := by
  refine ⟨afterFlagged 101, Reaches.run .refl ?_, ⟨_, rfl⟩, ?_, ?_, rfl⟩
  · exact admitted_of_forall Machine.holding_true
  · exact List.mem_singleton.2 rfl
  · exact List.all_eq_true.1 rfl

end BlendLiquidator
