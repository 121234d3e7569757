/-
What suppression rests on, over every interleaving of the notifier's calls.

Every dedup entry is that of a call which has not rolled back
(`Sound.entry_call`), and every permit is free, drained or held
(`Sound.permits_sum`): this much holds of every run. That such a call was
handed to a delivery task, and that a rollback finds its own entry, is
another matter. Between a call's insertion and its spawn another call sees
its entry, and two calls of one key and time are not told apart by their
entries. `Clear` leaves these two out.
-/
import BlendLiquidator.Calls
import BlendLiquidator.Notifier

namespace BlendLiquidator

open Calls

namespace Stage

/-- The moves of a call that leave the dedup map alone. -/
inductive Advance : Stage → Stage → Prop
  | refuse : Advance .inserted .refused
  | permit : Advance .inserted .permitted
  | spawn : Advance .permitted .sending
  | sent : Advance .sending .closing
  | fail : Advance .sending .failed
  | close : Advance .closing .finished

/-- The moves of a call that rolls back. -/
inductive Retreat : Stage → Stage → Prop
  | drop : Retreat .refused .dropped
  | fallBack : Retreat .failed .closing

/-- It inserted an entry, and has not rolled it back. -/
def standing (stage : Stage) : Prop := stage ≠ .deduplicated ∧ stage ≠ .dropped

/-- Permits held at a stage. -/
def permits (stage : Stage) : Nat := if stage.holds then 1 else 0

variable {stage stage' : Stage}

theorem Advance.standing (h : stage.Advance stage') : stage'.standing := by
  cases h <;> simp [Stage.standing]

theorem Advance.unsettled (h : stage.Advance stage') (hstage : stage'.unsettled = true) : stage.unsettled = true := by
  cases h <;> first | rfl | cases hstage

theorem Advance.handed (h : stage.Advance stage') (hstage : stage.handed = true) : stage'.handed = true := by
  cases h <;> first | rfl | cases hstage

theorem handed_of_standing (stage : Stage) (h : stage.standing) (hwaiting : stage.waiting = false) : stage.handed = true := by
  obtain ⟨hdeduplicated, hdropped⟩ := h
  cases stage <;> simp_all [waiting, handed]

theorem Retreat.settled (h : stage.Retreat stage') : stage'.unsettled = false := by
  cases h <;> rfl

theorem Retreat.handed (h : stage.Retreat stage') (hstage : stage.handed = true) : stage'.handed = true := by
  cases h <;> first | rfl | cases hstage

theorem Retreat.answered (h : stage.Retreat stage') : stage' ≠ .deduplicated := by
  cases h <;> decide

theorem Retreat.permits (h : stage.Retreat stage') : stage'.permits = stage.permits := by
  cases h <;> rfl

end Stage

namespace Notifier

variable {cooldown : Nat} {s : Notifier}

/-! ## One step -/

theorem onCall_cases (s : Notifier) (id : Nat) (stage : Stage) (next : NotifyCall → Notifier) :
    (∃ call, s.calls[id]? = some call ∧ call.stage = stage ∧ s.onCall id stage next = next call) ∨
      s.onCall id stage next = s := by
  unfold onCall
  cases s.calls[id]? with
  | none => exact .inr rfl
  | some call =>
    by_cases hstage : call.stage = stage
    · exact .inl ⟨call, rfl, hstage, if_pos hstage⟩
    · exact .inr (if_neg hstage)

/-- What a step can leave. -/
inductive Next (cooldown : Nat) (s : Notifier) : Step → Notifier → Prop
  | suppressed (notification : Notification) (now : Nat)
      (h : suppresses cooldown s.recent notification.key now = true) :
      Next cooldown s (.notify notification now) { s with calls := s.calls ++ [⟨notification, now, .deduplicated⟩] }
  | inserted (notification : Notification) (now : Nat)
      (h : suppresses cooldown s.recent notification.key now = false) :
      Next cooldown s (.notify notification now)
        { s with
          recent := Function.update s.recent notification.key (some ⟨now, s.calls.length⟩)
          calls := s.calls ++ [⟨notification, now, .inserted⟩] }
  | advances {a : Step} {id : Nat} {call : NotifyCall} (stage : Stage) (permits : Nat) (hcall : s.calls[id]? = some call)
      (h : call.stage.Advance stage) (hpermits : permits + stage.permits = s.permits + call.stage.permits) :
      Next cooldown s a { s.advance id call stage with permits }
  | rollsBack {a : Step} {id : Nat} {call : NotifyCall} (stage : Stage) (ha : a = .drop id ∨ a = .fallBack id)
      (hcall : s.calls[id]? = some call) (h : call.stage.Retreat stage) :
      Next cooldown s a { s.advance id call stage with recent := rollBack s.recent call.key call.now }
  | drains {a : Step} (permits drained : Nat) (h : permits + drained = s.permits + s.drained) :
      Next cooldown s a { s with permits, drained }

theorem Next.none (a : Step) : Next cooldown s a s := .drains s.permits s.drained rfl

theorem step_next (a : Step) : Next cooldown s a (step cooldown s a) := by
  cases a with
  | notify notification now =>
    cases h : suppresses cooldown s.recent notification.key now with
    | true =>
      simp only [step, h, if_true]
      exact .suppressed notification now h
    | false =>
      simp only [step, h, Bool.false_eq_true, if_false]
      exact .inserted notification now h
  | tryAcquire id =>
    rw [step]
    obtain ⟨call, hcall, hstage, heq⟩ | heq := s.onCall_cases id .inserted _
    · rw [heq]
      split
      · rename_i hfree
        refine .advances .permitted (s.permits - 1) hcall (hstage ▸ .permit) ?_
        simp only [hstage, Stage.permits, Stage.holds, if_true, Bool.false_eq_true, if_false]
        omega
      · exact .advances .refused s.permits hcall (hstage ▸ .refuse) (by rw [hstage]; rfl)
    · rw [heq]
      exact .none _
  | drop id =>
    rw [step]
    obtain ⟨call, hcall, hstage, heq⟩ | heq := s.onCall_cases id .refused _
    · rw [heq]
      exact .rollsBack .dropped (.inl rfl) hcall (hstage ▸ .drop)
    · rw [heq]
      exact .none _
  | spawn id =>
    rw [step]
    obtain ⟨call, hcall, hstage, heq⟩ | heq := s.onCall_cases id .permitted _
    · rw [heq]
      exact .advances .sending s.permits hcall (hstage ▸ .spawn) (by rw [hstage]; rfl)
    · rw [heq]
      exact .none _
  | sent id ok =>
    rw [step]
    obtain ⟨call, hcall, hstage, heq⟩ | heq := s.onCall_cases id .sending _
    · rw [heq]
      cases ok with
      | true => exact .advances .closing s.permits hcall (hstage ▸ .sent) (by rw [hstage]; rfl)
      | false => exact .advances .failed s.permits hcall (hstage ▸ .fail) (by rw [hstage]; rfl)
    · rw [heq]
      exact .none _
  | fallBack id =>
    rw [step]
    obtain ⟨call, hcall, hstage, heq⟩ | heq := s.onCall_cases id .failed _
    · rw [heq]
      exact .rollsBack .closing (.inr rfl) hcall (hstage ▸ .fallBack)
    · rw [heq]
      exact .none _
  | close id =>
    rw [step]
    obtain ⟨call, hcall, hstage, heq⟩ | heq := s.onCall_cases id .closing _
    · rw [heq]
      exact .advances .finished (s.permits + 1) hcall (hstage ▸ .close) (by rw [hstage]; rfl)
    · rw [heq]
      exact .none _
  | drainTake =>
    rw [step]
    split
    · exact .drains (s.permits - 1) (s.drained + 1) (by omega)
    · exact .none _
  | drainRelease =>
    rw [step]
    split
    · exact .drains (s.permits + 1) (s.drained - 1) (by omega)
    · exact .none _

theorem getElem?_advance {id : Nat} {call : NotifyCall} (hcall : s.calls[id]? = some call) (stage : Stage) (i : Nat) :
    (s.advance id call stage).calls[i]? = if id = i then some { call with stage } else s.calls[i]? := by
  rw [advance, List.getElem?_set]
  split
  · rename_i hi
    subst hi
    rw [if_pos (List.getElem?_eq_some_iff.1 hcall).1]
  · rfl

theorem advance_cases {id i : Nat} {call moved : NotifyCall} {stage : Stage} (hmoved : s.calls[i]? = some moved)
    (hcall : (s.advance i moved stage).calls[id]? = some call) :
    i = id ∧ call = { moved with stage } ∨ s.calls[id]? = some call := by
  rw [getElem?_advance hmoved] at hcall
  split at hcall
  · rename_i hi
    exact .inl ⟨hi, (Option.some.inj hcall).symm⟩
  · exact .inr hcall

theorem countP_advance {id : Nat} {call : NotifyCall} (hcall : s.calls[id]? = some call) (stage : Stage) :
    (s.advance id call stage).calls.countP (·.stage.holds) + call.stage.permits =
      s.calls.countP (·.stage.holds) + stage.permits := by
  obtain ⟨hlt, hget⟩ := List.getElem?_eq_some_iff.1 hcall
  rw [advance, List.countP_set hlt, hget]
  have hpos : call.stage.holds = true → 0 < s.calls.countP (·.stage.holds) := by
    intro hholds
    exact List.countP_pos_iff.2 ⟨call, hget ▸ List.getElem_mem hlt, hholds⟩
  simp only [Stage.permits]
  split <;> split <;> simp_all

theorem rollBack_eq_some {recent : DedupKey → Option Sent} {key key' : DedupKey} {now : Nat} {entry : Sent} :
    rollBack recent key now key' = some entry ↔ recent key' = some entry ∧ (key' = key → entry.sentAt ≠ now) := by
  unfold rollBack
  split
  · rename_i hheld
    by_cases hkey : key' = key
    · subst hkey
      simp only [Function.update_self, reduceCtorEq, false_iff, not_and, forall_const, not_not]
      intro hentry
      rw [hentry] at hheld
      simpa using hheld
    · simp [hkey]
  · rename_i hheld
    constructor
    · intro hentry
      refine ⟨hentry, ?_⟩
      rintro rfl hnow
      rw [hentry] at hheld
      exact hheld (by simp [hnow])
    · exact And.left

/-! ## Every run -/

structure Sound (s : Notifier) : Prop where
  entry_call : ∀ key entry, s.recent key = some entry →
    ∃ call, s.calls[entry.caller]? = some call ∧ call.key = key ∧ call.now = entry.sentAt ∧ call.stage.standing
  permits_sum : s.permits + s.drained + s.calls.countP (·.stage.holds) = NOTIFY_IN_FLIGHT

theorem sound_start : Sound {} where
  entry_call key entry h := by cases h
  permits_sum := rfl

theorem getElem?_concat_of_some {calls : List NotifyCall} {call added : NotifyCall} {id : Nat}
    (h : calls[id]? = some call) : (calls ++ [added])[id]? = some call := by
  rw [List.getElem?_append_left (List.getElem?_eq_some_iff.1 h).1, h]

theorem Sound.next {a : Step} {s' : Notifier} (h : Sound s) (hnext : Next cooldown s a s') : Sound s' := by
  cases hnext with
  | suppressed notification now hsuppressed =>
    constructor
    · intro key entry hentry
      obtain ⟨call, hcall, hrest⟩ := h.entry_call key entry hentry
      exact ⟨call, getElem?_concat_of_some hcall, hrest⟩
    · simpa [List.countP_append, Stage.holds] using h.permits_sum
  | inserted notification now hsuppressed =>
    constructor
    · intro key entry hentry
      dsimp only at hentry
      by_cases hkey : key = notification.key
      · subst hkey
        rw [Function.update_self] at hentry
        obtain rfl := Option.some.inj hentry
        exact ⟨⟨notification, now, .inserted⟩, by simp, rfl, rfl, by simp [Stage.standing]⟩
      · rw [Function.update_of_ne hkey] at hentry
        obtain ⟨call, hcall, hrest⟩ := h.entry_call key entry hentry
        exact ⟨call, getElem?_concat_of_some hcall, hrest⟩
    · simpa [List.countP_append, Stage.holds] using h.permits_sum
  | @advances _ id call stage permits hcall hadvance hpermits =>
    constructor
    · intro key entry hentry
      obtain ⟨owner, howner, hkey, hnow, hstanding⟩ := h.entry_call key entry hentry
      rw [getElem?_advance hcall]
      split
      · rename_i hid
        rw [← hid, hcall] at howner
        obtain rfl := Option.some.inj howner
        exact ⟨_, rfl, hkey, hnow, hadvance.standing⟩
      · exact ⟨owner, howner, hkey, hnow, hstanding⟩
    · have hcount := countP_advance hcall stage
      have hsum := h.permits_sum
      dsimp only [advance] at hcount ⊢
      omega
  | @rollsBack _ id call stage ha hcall hretreat =>
    constructor
    · intro key entry hentry
      obtain ⟨hentry, hother⟩ := rollBack_eq_some.1 hentry
      obtain ⟨owner, howner, hkey, hnow, hstanding⟩ := h.entry_call key entry hentry
      -- an entry of the call itself would have gone
      have hne : id ≠ entry.caller := by
        rintro rfl
        rw [hcall] at howner
        obtain rfl := Option.some.inj howner
        exact hother hkey.symm hnow.symm
      refine ⟨owner, ?_, hkey, hnow, hstanding⟩
      exact (getElem?_advance hcall stage _).trans ((if_neg hne).trans howner)
    · have hcount := countP_advance hcall stage
      rw [hretreat.permits] at hcount
      have hsum := h.permits_sum
      dsimp only [advance] at hcount ⊢
      omega
  | drains permits drained hsum =>
    refine ⟨h.entry_call, ?_⟩
    rw [hsum]
    exact h.permits_sum

theorem inFlight_le (h : Sound s) : s.inFlight ≤ NOTIFY_IN_FLIGHT := by
  have hle : s.inFlight ≤ s.calls.countP (·.stage.holds) := by
    refine List.countP_mono_left fun call _ hflight => ?_
    revert hflight
    cases call.stage <;> decide
  have hsum := h.permits_sum
  omega

/-! ## Runs that keep clear -/

/-- The entry that suppresses a call is not that of a call between its
insertion and its spawn, and a call that inserts shares its time with no call
of its key that may still roll back. -/
def Clear (cooldown : Nat) (s : Notifier) : Step → Prop
  | .notify notification now => ∀ call ∈ s.calls, call.key = notification.key →
    (suppresses cooldown s.recent notification.key now = true → call.stage.waiting = true →
      (s.recent notification.key).map (·.sentAt) ≠ some call.now) ∧
    (suppresses cooldown s.recent notification.key now = false → call.stage.unsettled = true → call.now ≠ now)
  | _ => True

/-- A notification of the call's key was handed to a delivery task before it,
at a time less than `cooldown` before its own. -/
def HandedBefore (cooldown : Nat) (s : Notifier) (id : Nat) (call : NotifyCall) : Prop :=
  ∃ (earlier : Nat) (first : NotifyCall), earlier < id ∧ s.calls[earlier]? = some first ∧ first.key = call.key ∧
    first.stage.handed = true ∧ call.now - first.now < cooldown

structure Justified (cooldown : Nat) (s : Notifier) : Prop where
  /-- An entry at a call's key and time, while it may still roll back, is its
  own. -/
  own_entry : ∀ (id : Nat) (call : NotifyCall) (entry : Sent), s.calls[id]? = some call → call.stage.unsettled = true →
    s.recent call.key = some entry → entry.sentAt = call.now → entry.caller = id
  handed_before : ∀ (id : Nat) (call : NotifyCall), s.calls[id]? = some call → call.stage = .deduplicated →
    HandedBefore cooldown s id call

theorem justified_start : Justified cooldown {} where
  own_entry id call entry h := by cases h
  handed_before id call h := by cases h

theorem HandedBefore.concat {id : Nat} {call added : NotifyCall} {recent : DedupKey → Option Sent}
    (h : HandedBefore cooldown s id call) :
    HandedBefore cooldown { s with recent, calls := s.calls ++ [added] } id call := by
  obtain ⟨earlier, first, hlt, hfirst, hrest⟩ := h
  exact ⟨earlier, first, hlt, getElem?_concat_of_some hfirst, hrest⟩

/-- A call that was handed to its task stays so. -/
theorem HandedBefore.advance {id i : Nat} {call moved : NotifyCall} {stage : Stage} {recent : DedupKey → Option Sent}
    {permits : Nat} (h : HandedBefore cooldown s id call) (hmoved : s.calls[i]? = some moved)
    (hhanded : moved.stage.handed = true → stage.handed = true) :
    HandedBefore cooldown { s.advance i moved stage with recent, permits } id call := by
  obtain ⟨earlier, first, hlt, hfirst, hkey, hstage, hnow⟩ := h
  have hat := getElem?_advance hmoved stage earlier
  by_cases hi : i = earlier
  · subst hi
    rw [hmoved] at hfirst
    obtain rfl := Option.some.inj hfirst
    exact ⟨i, _, hlt, hat.trans (if_pos rfl), hkey, hhanded hstage, hnow⟩
  · exact ⟨earlier, first, hlt, hat.trans ((if_neg hi).trans hfirst), hkey, hstage, hnow⟩

theorem getElem?_concat {calls : List NotifyCall} {call added : NotifyCall} {id : Nat}
    (h : (calls ++ [added])[id]? = some call) : calls[id]? = some call ∨ id = calls.length ∧ call = added := by
  rw [List.getElem?_append] at h
  split at h
  · exact .inl h
  · right
    rw [List.getElem?_singleton] at h
    split at h
    · exact ⟨by omega, (Option.some.inj h).symm⟩
    · cases h

/-- The entry that suppresses a call is that of one handed to its task. -/
theorem handedBefore_of_suppresses {notification : Notification} {now : Nat} (hsound : Sound s)
    (hclear : Clear cooldown s (.notify notification now))
    (hsuppressed : suppresses cooldown s.recent notification.key now = true) :
    HandedBefore cooldown s s.calls.length ⟨notification, now, .deduplicated⟩ := by
  cases hentry : s.recent notification.key with
  | none =>
    rw [suppresses, hentry] at hsuppressed
    cases hsuppressed
  | some entry =>
    obtain ⟨owner, howner, hkey, hnow, hstanding⟩ := hsound.entry_call _ entry hentry
    have hwithin : now - entry.sentAt < cooldown := by
      rw [suppresses, hentry] at hsuppressed
      exact of_decide_eq_true hsuppressed
    have hwaits : owner.stage.waiting = true → False := by
      intro hwaiting
      refine (hclear owner (List.mem_of_getElem? howner) hkey).1 hsuppressed hwaiting ?_
      rw [hentry, hnow]
      rfl
    refine ⟨entry.caller, owner, (List.getElem?_eq_some_iff.1 howner).1, howner, hkey, ?_, hnow ▸ hwithin⟩
    exact owner.stage.handed_of_standing hstanding (Bool.eq_false_iff.2 hwaits)

theorem Justified.next {a : Step} {s' : Notifier} (h : Justified cooldown s) (hsound : Sound s) (hclear : Clear cooldown s a)
    (hnext : Next cooldown s a s') : Justified cooldown s' := by
  cases hnext with
  | suppressed notification now hsuppressed =>
    constructor
    · intro id call entry hcall hunsettled hentry hnow
      rcases getElem?_concat hcall with hcall | ⟨rfl, rfl⟩
      · exact h.own_entry id call entry hcall hunsettled hentry hnow
      · cases hunsettled
    · intro id call hcall hstage
      rcases getElem?_concat hcall with hcall | ⟨rfl, rfl⟩
      · exact (h.handed_before id call hcall hstage).concat
      · exact (handedBefore_of_suppresses hsound hclear hsuppressed).concat
  | inserted notification now hsuppressed =>
    constructor
    · intro id call entry hcall hunsettled hentry hnow
      dsimp only at hentry
      rcases getElem?_concat hcall with hcall | ⟨rfl, rfl⟩
      · by_cases hkey : call.key = notification.key
        · rw [hkey, Function.update_self] at hentry
          obtain rfl := Option.some.inj hentry
          exact absurd hnow.symm ((hclear call (List.mem_of_getElem? hcall) hkey).2 hsuppressed hunsettled)
        · rw [Function.update_of_ne hkey] at hentry
          exact h.own_entry id call entry hcall hunsettled hentry hnow
      · have hself : (⟨notification, now, .inserted⟩ : NotifyCall).key = notification.key := rfl
        rw [hself, Function.update_self] at hentry
        rw [← Option.some.inj hentry]
    · intro id call hcall hstage
      rcases getElem?_concat hcall with hcall | ⟨rfl, rfl⟩
      · exact (h.handed_before id call hcall hstage).concat
      · cases hstage
  | @advances _ i moved stage permits hmoved hadvance hpermits =>
    constructor
    · intro id call entry hcall hunsettled hentry hnow
      rcases advance_cases hmoved hcall with ⟨rfl, rfl⟩ | hcall
      · exact h.own_entry i moved entry hmoved (hadvance.unsettled hunsettled) hentry hnow
      · exact h.own_entry id call entry hcall hunsettled hentry hnow
    · intro id call hcall hstage
      rcases advance_cases hmoved hcall with ⟨rfl, rfl⟩ | hcall
      · exact absurd hstage hadvance.standing.1
      · exact (h.handed_before id call hcall hstage).advance hmoved hadvance.handed
  | @rollsBack _ i moved stage ha hmoved hretreat =>
    constructor
    · intro id call entry hcall hunsettled hentry hnow
      have hentry := (rollBack_eq_some.1 hentry).1
      rcases advance_cases hmoved hcall with ⟨rfl, rfl⟩ | hcall
      · rw [hretreat.settled] at hunsettled
        cases hunsettled
      · exact h.own_entry id call entry hcall hunsettled hentry hnow
    · intro id call hcall hstage
      rcases advance_cases hmoved hcall with ⟨rfl, rfl⟩ | hcall
      · exact absurd hstage hretreat.answered
      · exact (h.handed_before id call hcall hstage).advance hmoved hretreat.handed
  | drains permits drained hsum => exact ⟨h.own_entry, h.handed_before⟩

theorem Justified.rollBack_own {id : Nat} {key : DedupKey} {entry : Sent} {stage stage' : Stage} (h : Justified cooldown s)
    (hunsettled : stage.unsettled = true) (hentry : s.recent key = some entry)
    (hgone : (s.onCall id stage fun call =>
      { s.advance id call stage' with recent := rollBack s.recent call.key call.now }).recent key = none) :
    entry.caller = id := by
  obtain ⟨call, hcall, hstage, heq⟩ | heq := s.onCall_cases id stage _
  · rw [heq] at hgone
    dsimp only at hgone
    by_cases hown : key = call.key → entry.sentAt ≠ call.now
    · rw [rollBack_eq_some.2 ⟨hentry, hown⟩] at hgone
      cases hgone
    · obtain ⟨rfl, hnow⟩ := Classical.not_imp.1 hown
      exact h.own_entry id call entry hcall (hstage ▸ hunsettled) hentry (not_not.1 hnow)
  · rw [heq, hentry] at hgone
    cases hgone

theorem reaches_sound {ok : Notifier → Step → Prop} (h : Reaches (step cooldown) ok {} s) : Sound s :=
  h.always sound_start fun hs _ => hs.next (step_next _)

theorem reaches_justified (h : Reaches (step cooldown) (Clear cooldown) {} s) : Justified cooldown s := by
  have hboth : Sound s ∧ Justified cooldown s := by
    refine h.always (I := fun t => Sound t ∧ Justified cooldown t) ⟨sound_start, justified_start⟩ ?_
    intro t a ⟨hsound, hjustified⟩ hclear
    exact ⟨hsound.next (step_next a), hjustified.next hsound hclear (step_next a)⟩
  exact hboth.2

theorem deduplicated_of_answer {stage : Stage} (h : stage.answer = some .deduplicated) : stage = .deduplicated := by
  cases stage <;> simp_all [Stage.answer]

/-- The deliveries in flight are bounded in every run. In a run that keeps
clear, a call is suppressed only by one handed on, and a rollback removes its
own entry only. -/
theorem suppression_justified (cooldown : Nat) (s : Notifier) (hrun : Reaches (step cooldown) (Clear cooldown) {} s) :
    (∀ t, Reaches (step cooldown) (fun _ _ => True) {} t → t.inFlight ≤ NOTIFY_IN_FLIGHT) ∧
    (∀ (id : Nat) (call : NotifyCall), s.calls[id]? = some call → call.stage.answer = some .deduplicated →
      HandedBefore cooldown s id call) ∧
    ∀ id key entry, s.recent key = some entry →
      (step cooldown s (.drop id)).recent key = none ∨ (step cooldown s (.fallBack id)).recent key = none →
      entry.caller = id := by
  have hjustified := reaches_justified hrun
  refine ⟨?_, ?_, ?_⟩
  · intro t ht
    exact inFlight_le (reaches_sound ht)
  · intro id call hcall hanswer
    exact hjustified.handed_before id call hcall (deduplicated_of_answer hanswer)
  · intro id key entry hentry hgone
    rcases hgone with hgone | hgone
    · exact hjustified.rollBack_own rfl hentry hgone
    · exact hjustified.rollBack_own rfl hentry hgone

def hour : Nat := 3600

def alert (pool : String) : Notification := ⟨.fillFailed, .high, pool, none, "fill failed"⟩

/-- A second notification a second after the first was handed on. -/
theorem suppression_justified_repeat :
    HandedBefore hour ([Step.notify (alert "POOL") 0, .tryAcquire 0, .spawn 0, .notify (alert "POOL") 1].foldl (step hour) {})
      1 ⟨alert "POOL", 1, .deduplicated⟩ := by
  have hrun : Reaches (step hour) (Clear hour) {}
      ([Step.notify (alert "POOL") 0, .tryAcquire 0, .spawn 0, .notify (alert "POOL") 1].foldl (step hour) {}) := by
    refine Reaches.run .refl ⟨by simp [Clear], trivial, trivial, ?_, trivial⟩
    simp only [Clear]
    decide +kernel
  exact (suppression_justified hour _ hrun).2.1 1 _ (by decide +kernel) rfl

/-- Ten pools' deliveries, which hold every permit. -/
def crowd : List Step :=
  (["A", "B", "C", "D", "E", "F", "G", "H", "I", "J"].zipIdx).flatMap fun (pool, id) =>
    [.notify (alert pool) 0, .tryAcquire id, .spawn id]

/-- Every permit is taken: the first call inserts its entry, the second is
suppressed by it, and the first is dropped. -/
def suppressedByDropped : List Step :=
  crowd ++ [.notify (alert "POOL") 0, .notify (alert "POOL") 1, .tryAcquire 10, .drop 10]

/-- The first call's delivery outlasts a second one's, an hour on and failed,
and a third call has the first one's time. -/
def sameTime : List Step :=
  [.notify (alert "POOL") 0, .tryAcquire 0, .spawn 0, .notify (alert "POOL") hour, .tryAcquire 1, .spawn 1, .sent 1 false,
    .fallBack 1, .notify (alert "POOL") 0, .sent 0 false]

theorem suppression_unjustified :
    (∃ s, Reaches (step hour) (fun _ _ => True) {} s ∧ ∃ (id : Nat) (call : NotifyCall), s.calls[id]? = some call ∧
      call.stage.answer = some .deduplicated ∧ ¬HandedBefore hour s id call) ∧
    ∃ s, Reaches (step hour) (fun _ _ => True) {} s ∧ ∃ id key entry, s.recent key = some entry ∧
      (step hour s (.fallBack id)).recent key = none ∧ entry.caller ≠ id := by
  constructor
  · refine ⟨suppressedByDropped.foldl (step hour) {}, Reaches.refl.run admitted_true, 11,
      ⟨alert "POOL", 1, .deduplicated⟩, by decide +kernel, rfl, ?_⟩
    rintro ⟨earlier, first, -, hfirst, hkey, hhanded, -⟩
    have hnone : ∀ call ∈ (suppressedByDropped.foldl (step hour) {}).calls, call.key = (alert "POOL").key →
        call.stage.handed = false := by decide +kernel
    rw [hnone first (List.mem_of_getElem? hfirst) hkey] at hhanded
    cases hhanded
  · exact ⟨sameTime.foldl (step hour) {}, Reaches.refl.run admitted_true, 0, (alert "POOL").key, ⟨0, 2⟩, by decide +kernel,
      by decide +kernel, by decide⟩

end Notifier

end BlendLiquidator
