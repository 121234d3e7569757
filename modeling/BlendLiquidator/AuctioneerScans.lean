/-
The auctioneer's oracle scans, over a whole run.

What they read and flag is seen from the record alone (`scansOf`), and so is
what they owe: the moves each answered read shows against the reads of its pool
before it. Only the scan's own share of a turn is seen there, so each turn comes
down to one read and its flags.
-/
import BlendLiquidator.AuctioneerLoopFacts

namespace BlendLiquidator

open Calls Results

/-! ## What is seen of the scans -/

/-- One read of an oracle scan. -/
structure OracleRead where
  pool : String
  tick : LedgerTick
  answer : Except ChainError FullSnapshot

/-- The read found the ledger moved under it. -/
def OracleRead.moved (read : OracleRead) : Bool :=
  match read.answer with
  | .error (.ledgerMoved _ _) => true
  | _ => false

/-- What a read leaves of its pool's watch. -/
def OracleRead.watched (read : OracleRead) (watch : PriceWatch) : PriceWatch :=
  match read.answer with
  | .ok snapshot => (watch.moved read.pool snapshot.prices read.tick.closeTime).1
  | .error _ => watch

/-- What a read leaves of its pool's books: the ledger of the last recorded
scan, and whether its one immediate retry is spent. -/
def OracleRead.booked (read : OracleRead) (books : Option Nat × Bool) : Option Nat × Bool :=
  if read.moved && !books.2 then (books.1, true) else (some read.tick.sequence, false)

/-- A write of `flag_exposed_to`. -/
structure Flag where
  pool : String
  index : Nat
  side : Side
  ledger : Nat
  deriving DecidableEq

/-- The flag of one exposure. -/
def Flag.of (pool : String) (tick : LedgerTick) (exposed : Nat × Side) : Flag := ⟨pool, exposed.1, exposed.2, tick.sequence⟩

/-- The tick being taken, and what the scans have read and flagged. -/
structure Scans where
  tick : Option LedgerTick := none
  reads : List OracleRead := []
  flagged : List Flag := []

def Scans.see (scans : Scans) : Entry TaskCall.Answer → Scans
  | ⟨.borrow, tick⟩ => { scans with tick := some tick }
  | ⟨.reading (.snapshot pool []), answer⟩ =>
    { scans with reads := scans.reads ++ (scans.tick.map fun tick => ⟨pool, tick, answer⟩).toList }
  | ⟨.write (.flagExposed pool index side ledger), _⟩ =>
    { scans with flagged := scans.flagged ++ [⟨pool, index, side, ledger⟩] }
  | _ => scans

def scansOf (l : List (Entry TaskCall.Answer)) : Scans := l.foldl Scans.see {}

/-- The calls that are nothing to the scans, nor to their end. -/
def TaskCall.plain : TaskCall → Bool
  | .borrow | .reading (.snapshot _ []) | .write (.flagExposed _ _ _ _) | .needing _ _ => false
  | _ => true

section Seen

variable {l : List (Entry TaskCall.Answer)}

theorem scansOf_append (e : Entry TaskCall.Answer) : scansOf (l ++ [e]) = (scansOf l).see e := by
  rw [scansOf, List.foldl_append]
  rfl

theorem scansOf_plain {o : TaskCall} (h : o.plain = true) (a : o.Answer) : scansOf (l ++ [⟨o, a⟩]) = scansOf l := by
  rw [scansOf_append]
  cases o with
  | borrow => cases h
  | write statement => cases statement <;> first | rfl | cases h
  | reading call =>
    cases call with
    | snapshot pool users => cases users <;> first | rfl | cases h
    | auction pool account auctionType => rfl
  | changed => rfl
  | stopping => rfl
  | needing pool limit => cases h
  | below pool threshold limit after => rfl
  | acting call => rfl
  | creation attempt => rfl
  | notify notification => rfl

end Seen

/-! ## Beside the scans -/

namespace AuctioneerTask

variable {task : AuctioneerTask} {A : List (Entry TaskCall.Answer) → (o : TaskCall) → o.Answer → Prop}
  {P : List (Entry TaskCall.Answer) → TaskCall → Prop} {l : List (Entry TaskCall.Answer)} {tick : LedgerTick} {pool : String}
  {submit : Bool} {state : AuctioneerState} {scans : Scans}

/-- Nothing a program does is seen of the scans. -/
def Unseen (scans : Scans) (l : List (Entry TaskCall.Answer)) : Prop := scansOf l = scans

theorem Unseen.call (h : Unseen scans l) {o : TaskCall} (ho : o.plain = true) (a : o.Answer) : Unseen scans (l ++ [⟨o, a⟩]) :=
  (scansOf_plain ho a).trans h

theorem noteAct_unseen (hplain : ∀ l o, Unseen scans l → o.plain = true → P l o) {account : String}
    {acted : Except AuctioneerError ActOutcome} (h : Unseen scans l) :
    Keeps A P (fun l _ => Unseen scans l) l (task.noteAct pool account acted) := by
  have hone : ∀ l attempt, Unseen scans l → Keeps A P (fun l _ => Unseen scans l) l
      (Proc.call (TaskCall.creation attempt) : Tasking Unit) :=
    fun l attempt h => ⟨hplain _ _ h rfl, fun a _ => h.call rfl a⟩
  have htold : ∀ l notification, Unseen scans l → Keeps A P (fun l _ => Unseen scans l) l
      (Proc.call (TaskCall.notify notification) : Tasking Unit) :=
    fun l notification h => ⟨hplain _ _ h rfl, fun a _ => h.call rfl a⟩
  cases acted with
  | ok outcome =>
    cases outcome with
    | skipped reason => exact h
    | refused => exact h
    | recorded outcome =>
      refine (hone l _ h).bind (fun l _ h => ?_) fun _ _ h => h
      split
      · exact (hone l _ h).bind (fun l _ h => htold l _ h) fun _ _ h => h
      · exact hone l _ h
      · exact hone l _ h
      · exact h
      · exact h
  | error error =>
    unfold noteAct
    split
    · next heq => cases heq
    · refine (hone l _ h).bind (fun l _ h => ?_) fun _ _ h => h
      exact (hone l _ h).bind (fun l _ h => htold l _ h) fun _ _ h => h
    · exact h
    · exact h
    · exact h

theorem act_unseen (hplain : ∀ l o, Unseen scans l → o.plain = true → P l o) {account : String} {decision : Decision}
    (h : Unseen scans l) : Keeps A P (fun l _ => Unseen scans l) l (task.act submit pool account decision tick) := by
  refine Keeps.bind (Keeps.part (R := fun _ l' => Unseen scans l')
    (fun _ l' o hl' _ => ⟨hplain _ _ hl' rfl, fun a _ => ⟨trivial, hl'.call rfl a⟩⟩) (Keeps.any (l := [])) h)
    (fun l' answer h => ?_) fun l' error h => ?_
  · obtain ⟨_, _, -, hl', -⟩ := h
    exact (noteAct_unseen hplain hl').bind (fun _ _ h => h) fun _ _ h => h
  · obtain ⟨_, _, -, hl', -⟩ := h
    exact hl'

theorem decide_unseen (hplain : ∀ l o, Unseen scans l → o.plain = true → P l o) {batch : List TrackedUser}
    (h : Unseen scans l) : Keeps A P (fun l _ => Unseen scans l) l (task.decide pool batch tick) := by
  have hreads : ∀ o ∈ task.config.reads pool (batch.map (·.account)), (TaskCall.reading o).plain = true := by
    intro o ho
    unfold AuctioneerConfig.reads at ho
    split at ho
    · cases ho
    next hpending =>
    rcases List.mem_cons.1 ho with rfl | ho
    · cases hnames : task.config.pending pool (batch.map (·.account)) with
      | nil => exact absurd (by rw [hnames]; rfl) hpending
      | cons name rest => rfl
    · obtain ⟨account, -, rfl⟩ := List.mem_map.1 ho
      rfl
  refine Keeps.bind (Keeps.part (R := fun _ l' => Unseen scans l') (fun inner l' o hl' hread => ?_)
    (task.config.decide_keeps pool (batch.map (·.account)) tick) h) (fun l' answer h => ?_) fun l' error h => ?_
  · have ho := hreads o (hread.subset (List.mem_append_right _ (List.mem_singleton_self _)))
    exact ⟨hplain _ _ hl' ho, fun a _ => ⟨trivial, hl'.call ho a⟩⟩
  · obtain ⟨_, _, -, hl', -⟩ := h
    exact hl'
  · obtain ⟨_, _, -, hl', -⟩ := h
    exact hl'

/-- A part of a turn beside the oracle scan changes nothing of it. -/
theorem beside_unseen (hplain : ∀ l o, Unseen scans l → o.plain = true → P l o) {α : Type} {m : Rechecking α}
    (hm : Keeps (fun _ _ _ => True) (AsksBeside pool tick) (fun _ _ => True) [] m) (h : Unseen scans l) :
    Keeps A P (fun l' r => Unseen scans l' ∧ ∀ a state', r = .ok (a, state') → state' = state) l
      (m.carried (task.carryOut submit) state) := by
  refine (Keeps.carried (A := fun _ _ _ => True) (R := fun _ state' l' => state' = state ∧ Unseen scans l')
    (E := fun l' _ => Unseen scans l') (fun asked state' l' o hR hasks => ?_) hm ⟨rfl, h⟩).mono (fun _ _ h => h) ?_
  · obtain ⟨rfl, hl'⟩ := hR
    have hcall : ∀ (call : TaskCall) (f : call.Answer → o.Answer), call.plain = true →
        Keeps A P (fun l'' (r : Except StoreError (o.Answer × AuctioneerState)) =>
          (∀ a s', r = .ok (a, s') → True ∧ s' = state' ∧ Unseen scans l'') ∧ ∀ e, r = .error e → Unseen scans l'') l'
          (do pure (f (← Proc.call call), state')) := by
      intro call f hcall
      refine Keeps.bind_call (hplain _ _ hl' hcall) fun a _ => ⟨fun a' s' heq => ?_, fun _ heq => by cases heq⟩
      cases heq
      exact ⟨trivial, rfl, hl'.call hcall a⟩
    cases o with
    | write statement =>
      refine hcall (.write statement) id ?_
      cases statement <;> first | rfl | exact absurd hasks.2 Bool.noConfusion
    | needing pool' limit => exact absurd hasks.2 Bool.noConfusion
    | below pool' threshold limit after => exact hcall (.below pool' threshold limit after) id rfl
    | stopping => exact hcall .stopping id rfl
    | moves pool' tick' => exact absurd hasks.2 Bool.noConfusion
    | decide pool' batch tick' =>
      refine (decide_unseen hplain hl').bind (fun l'' answer h => ⟨fun a s' heq => ?_, fun _ _ => h⟩) fun l'' e h =>
        ⟨fun _ _ heq => (by cases heq), fun _ _ => h⟩
      cases heq
      exact ⟨trivial, rfl, h⟩
    | act pool' account decision tick' =>
      refine (act_unseen hplain hl').bind (fun l'' answer h => ⟨fun a s' heq => ?_, fun _ _ => h⟩) fun l'' e h =>
        ⟨fun _ _ heq => (by cases heq), fun _ _ => h⟩
      cases heq
      exact ⟨trivial, rfl, h⟩
  · intro l' r hr
    cases r with
    | ok answer =>
      obtain ⟨a, state'⟩ := answer
      obtain ⟨_, ⟨rfl, hl'⟩, -⟩ := hr.1 a state' rfl
      refine ⟨hl', fun _ _ heq => ?_⟩
      cases heq
      rfl
    | error error =>
      refine ⟨?_, fun _ _ heq => by cases heq⟩
      rcases hr.2 error rfl with ⟨_, _, ⟨-, hl'⟩, -⟩ | hl'
      · exact hl'
      · exact hl'

/-! ## What the scans owe -/

variable (task) in
/-- The pool's watch before its first read. -/
def freshWatch : PriceWatch := { deltaBps := task.cadence.priceDeltaBps, staleAfter := PRICE_REFERENCE_STALE_AFTER_SECS }

variable (task) in
/-- The pool's watch after reads. -/
def watchAfter (pool : String) (reads : List OracleRead) : PriceWatch :=
  reads.foldl (fun watch read => if read.pool = pool then read.watched watch else watch) task.freshWatch

variable (task) in
/-- What a read owes after others: a flag for each move it shows, against the
borrowers it hurts. -/
def flagsOf (before : List OracleRead) (read : OracleRead) : List Flag :=
  match read.answer with
  | .ok snapshot =>
    let moves := ((task.watchAfter read.pool before).moved read.pool snapshot.prices read.tick.closeTime).2
    (moves.filterMap (exposure snapshot)).map (Flag.of read.pool read.tick)
  | .error _ => []

variable (task) in
/-- What reads owe that come after others. -/
def owedAfter (before : List OracleRead) : List OracleRead → List Flag
  | [] => []
  | read :: rest => task.flagsOf before read ++ owedAfter (before ++ [read]) rest

variable (task) in
/-- What reads owe, one after the other. -/
def owed (reads : List OracleRead) : List Flag := task.owedAfter [] reads

/-- A pool's books after reads. -/
def booked (pool : String) (reads : List OracleRead) : Option Nat × Bool :=
  reads.foldl (fun books read => if read.pool = pool then read.booked books else books) (none, false)

variable {before reads : List OracleRead} {read : OracleRead}

theorem owedAfter_append : task.owedAfter before (reads ++ [read]) = task.owedAfter before reads ++
    task.flagsOf (before ++ reads) read := by
  induction reads generalizing before with
  | nil => simp [owedAfter]
  | cons first rest ih => simp [owedAfter, ih]

theorem owed_append : task.owed (reads ++ [read]) = task.owed reads ++ task.flagsOf reads read := owedAfter_append

/-- The state stands to the reads as it should. -/
structure Watching (task : AuctioneerTask) (state : AuctioneerState) (reads : List OracleRead) : Prop where
  watches : ∀ pool, task.watchOf pool state = task.watchAfter pool reads
  last : ∀ pool, state.lastOracleScan[pool]? = (booked pool reads).1
  retried : ∀ pool, pool ∈ state.oracleScanRetried ↔ (booked pool reads).2 = true

/-- Each read was due when it was made. -/
def AllDue (task : AuctioneerTask) (reads : List OracleRead) : Prop :=
  ∀ before read after, reads = before ++ read :: after →
    scanDue read.tick.sequence (booked read.pool before).1 task.cadence.oraclePhase task.cadence.oracleScanLedgers = true

/-- The pool's prices were read at this tick, or no read is due. -/
def Looked (task : AuctioneerTask) (pool : String) (scans : Scans) : Prop :=
  ∀ tick, scans.tick = some tick →
    scanDue tick.sequence (booked pool scans.reads).1 task.cadence.oraclePhase task.cadence.oracleScanLedgers = false ∨
      ∃ read ∈ scans.reads, read.pool = pool ∧ read.tick = tick

/-- What each call keeps: no flag is written but the next one owed, and no
borrower is looked for before all of them are. -/
def Scanning (task : AuctioneerTask) (l : List (Entry TaskCall.Answer)) : TaskCall → Prop
  | .write (.flagExposed pool index side ledger) => task.AllDue (scansOf l).reads ∧
    (scansOf l).flagged ++ [⟨pool, index, side, ledger⟩] <+: task.owed (scansOf l).reads
  | .needing pool _ => task.AllDue (scansOf l).reads ∧ task.Looked pool (scansOf l) ∧
    (scansOf l).flagged = task.owed (scansOf l).reads
  | _ => task.AllDue (scansOf l).reads

/-- At every call the reads so far were due. -/
theorem Scanning.allDue {o : TaskCall} (h : task.Scanning l o) : task.AllDue (scansOf l).reads := by
  cases o with
  | write statement => cases statement <;> first | exact h.1 | exact h
  | needing pool limit => exact h.1
  | changed => exact h
  | borrow => exact h
  | stopping => exact h
  | below pool threshold limit after => exact h
  | reading call => exact h
  | acting call => exact h
  | creation attempt => exact h
  | notify notification => exact h

/-! ## One read -/

theorem watchOf_insert {pool' : String} {watch : PriceWatch} :
    task.watchOf pool' { state with priceWatches := state.priceWatches.insert pool watch } =
      if pool = pool' then watch else task.watchOf pool' state :=
  TreeMaps.getD_insert _ _ _ _ _

theorem booked_append : booked pool (reads ++ [read]) =
    if read.pool = pool then read.booked (booked pool reads) else booked pool reads := by
  simp only [booked, List.foldl_append, List.foldl_cons, List.foldl_nil]

theorem watchAfter_append : task.watchAfter pool (reads ++ [read]) =
    if read.pool = pool then read.watched (task.watchAfter pool reads) else task.watchAfter pool reads := by
  simp only [watchAfter, List.foldl_append, List.foldl_cons, List.foldl_nil]

/-- A scan on the books, as it is booked. -/
theorem Watching.scanned {watched : AuctioneerState} (h : task.Watching state reads)
    (hwatches : ∀ pool', task.watchOf pool' watched = task.watchAfter pool' (reads ++ [read]))
    (hlast : watched.lastOracleScan = state.lastOracleScan) (hretried : watched.oracleScanRetried = state.oracleScanRetried)
    (hbooked : booked read.pool (reads ++ [read]) = (some read.tick.sequence, false)) :
    task.Watching (scanned read.pool read.tick watched) (reads ++ [read]) where
  watches := hwatches
  last pool' := by
    have hinsert : (AuctioneerTask.scanned read.pool read.tick watched).lastOracleScan[pool']? =
        if read.pool = pool' then some read.tick.sequence else watched.lastOracleScan[pool']? :=
      TreeMaps.getElem?_insert _ _ _ _
    rw [hinsert]
    by_cases hpool : read.pool = pool'
    · subst hpool
      rw [if_pos rfl, hbooked]
    · rw [if_neg hpool, hlast, h.last, booked_append, if_neg hpool]
  retried pool' := by
    have herase : pool' ∈ (AuctioneerTask.scanned read.pool read.tick watched).oracleScanRetried ↔
        read.pool ≠ pool' ∧ pool' ∈ watched.oracleScanRetried := TreeMaps.mem_set_erase
    rw [herase, hretried, h.retried, booked_append]
    by_cases hpool : read.pool = pool'
    · subst hpool
      rw [booked_append, if_pos rfl] at hbooked
      simp [hbooked]
    · simp [hpool]

/-- A read the ledger moved under, as it is booked. -/
theorem Watching.ledgerMoved {watched : AuctioneerState} (h : task.Watching state reads)
    (hwatches : ∀ pool', task.watchOf pool' watched = task.watchAfter pool' (reads ++ [read]))
    (hlast : watched.lastOracleScan = state.lastOracleScan) (hretried : watched.oracleScanRetried = state.oracleScanRetried)
    (hmoved : read.moved = true) : task.Watching (ledgerMoved read.pool read.tick watched) (reads ++ [read]) := by
  have hspent : read.pool ∈ watched.oracleScanRetried ↔ (booked read.pool reads).2 = true := by rw [hretried, h.retried]
  unfold AuctioneerTask.ledgerMoved
  by_cases hbooks : (booked read.pool reads).2 = true
  · rw [if_pos (hspent.2 hbooks)]
    refine h.scanned hwatches hlast hretried ?_
    simp [booked_append, OracleRead.booked, hmoved, hbooks]
  · rw [if_neg fun hmem => hbooks (hspent.1 hmem)]
    have hbooked : booked read.pool (reads ++ [read]) = ((booked read.pool reads).1, true) := by
      simp [booked_append, OracleRead.booked, hmoved, hbooks]
    refine ⟨hwatches, fun pool' => ?_, fun pool' => ?_⟩
    · show watched.lastOracleScan[pool']? = _
      rw [hlast, h.last]
      by_cases hpool : read.pool = pool'
      · subst hpool
        rw [hbooked]
      · rw [booked_append, if_neg hpool]
    · have hinsert : pool' ∈ watched.oracleScanRetried.insert read.pool ↔
          read.pool = pool' ∨ pool' ∈ watched.oracleScanRetried := TreeMaps.mem_set_insert
      refine hinsert.trans ?_
      rw [hretried, h.retried]
      by_cases hpool : read.pool = pool'
      · subst hpool
        simp [hbooked]
      · simp [booked_append, hpool]

/-- Where the scans stand between the shares of a tick. -/
structure Settled (task : AuctioneerTask) (tick : LedgerTick) (state : AuctioneerState) (scans : Scans) : Prop where
  current : scans.tick = some tick
  watching : task.Watching state scans.reads
  allDue : task.AllDue scans.reads
  flagged : scans.flagged = task.owed scans.reads

/-- Where they stand after a read: its flags are owed. -/
structure Reading (task : AuctioneerTask) (pool : String) (tick : LedgerTick) (state : AuctioneerState) (flags : List Flag)
    (scans : Scans) : Prop where
  current : scans.tick = some tick
  watching : task.Watching state scans.reads
  allDue : task.AllDue scans.reads
  flagged : scans.flagged ++ flags = task.owed scans.reads
  looked : ∃ read ∈ scans.reads, read.pool = pool ∧ read.tick = tick

theorem allDue_append (h : task.AllDue reads) (hdue : scanDue read.tick.sequence (booked read.pool reads).1
    task.cadence.oraclePhase task.cadence.oracleScanLedgers = true) : task.AllDue (reads ++ [read]) := by
  intro before' read' after heq
  rcases List.append_eq_append_iff.1 heq with ⟨as, rfl, htail⟩ | ⟨bs, rfl, htail⟩
  · cases as with
    | nil =>
      rw [List.nil_append, List.cons.injEq] at htail
      obtain ⟨rfl, -⟩ := htail
      rw [List.append_nil]
      exact hdue
    | cons first rest => simp at htail
  · cases bs with
    | nil =>
      rw [List.nil_append, List.cons.injEq] at htail
      obtain ⟨rfl, -⟩ := htail
      rw [List.append_nil] at hdue
      exact hdue
    | cons first rest =>
      rw [List.cons_append, List.cons.injEq] at htail
      obtain ⟨rfl, -⟩ := htail
      exact h _ _ _ rfl

/-- The read of an oracle scan, and the flags its answer says. -/
theorem moves_reads (h : task.Settled tick state (scansOf l)) (hdue : scanDue tick.sequence state.lastOracleScan[pool]?
    task.cadence.oraclePhase task.cadence.oracleScanLedgers = true) :
    Keeps A task.Scanning (fun l' r => ∃ a state', r = .ok (a, state') ∧
      ((∃ moves, a = .ok moves ∧ task.Reading pool tick state' (moves.map (Flag.of pool tick)) (scansOf l')) ∨
      ∃ error, a = .error (.chain error) ∧ task.Reading pool tick state' [] (scansOf l'))) l (task.moves pool tick state) := by
  have hseen : ∀ answer : Except ChainError FullSnapshot,
      scansOf (l ++ [⟨.reading (.snapshot pool []), answer⟩]) =
        { scansOf l with reads := (scansOf l).reads ++ [⟨pool, tick, answer⟩] } := by
    intro answer
    rw [scansOf_append]
    show { scansOf l with reads := (scansOf l).reads ++ ((scansOf l).tick.map fun tick => (⟨pool, tick, answer⟩ : OracleRead)).toList } = _
    rw [h.current]
    rfl
  have hreading : ∀ (answer : Except ChainError FullSnapshot) (state' : AuctioneerState) (flags : List Flag),
      task.Watching state' ((scansOf l).reads ++ [⟨pool, tick, answer⟩]) →
      task.flagsOf (scansOf l).reads ⟨pool, tick, answer⟩ = flags →
      task.Reading pool tick state' flags
        (scansOf (l ++ [(⟨.reading (.snapshot pool []), answer⟩ : Entry TaskCall.Answer)])) := by
    intro answer state' flags hwatching hflags
    rw [hseen]
    refine ⟨h.current, hwatching, allDue_append h.allDue ?_, ?_, _, List.mem_append_right _ (List.mem_singleton_self _), rfl, rfl⟩
    · rw [h.watching.last] at hdue
      exact hdue
    · rw [owed_append, hflags, ← h.flagged]
  have hopened : ∀ pool', task.watchOf pool'
      { state with priceWatches := state.priceWatches.insert pool (task.watchOf pool state) } =
      task.watchAfter pool' (scansOf l).reads := by
    intro pool'
    rw [watchOf_insert, h.watching.watches, h.watching.watches]
    split
    · next hpool => rw [hpool]
    · rfl
  refine Keeps.bind_call h.allDue fun answer _ => ?_
  cases answer with
  | ok snapshot =>
    refine ⟨_, _, rfl, .inl ⟨_, rfl, hreading (.ok snapshot) _ _ ?_ ?_⟩⟩
    · refine @Watching.scanned task state (scansOf l).reads ⟨pool, tick, .ok snapshot⟩ _ h.watching (fun pool' => ?_) rfl rfl ?_
      · rw [watchOf_insert, hopened, hopened, watchAfter_append]
        by_cases hpool : pool = pool'
        · subst hpool
          rw [if_pos rfl, if_pos rfl]
          rfl
        · rw [if_neg hpool, if_neg hpool]
      · simp [booked_append, OracleRead.booked, OracleRead.moved]
    · rw [hopened]
      rfl
  | error error =>
    have hfailed : ∀ pool', task.watchOf pool'
        { state with priceWatches := state.priceWatches.insert pool (task.watchOf pool state) } =
        task.watchAfter pool' ((scansOf l).reads ++ [⟨pool, tick, .error error⟩]) := by
      intro pool'
      rw [hopened, watchAfter_append]
      split <;> rfl
    dsimp only
    split
    · next heq => cases heq
    · next first second heq =>
      cases heq
      exact ⟨_, _, rfl, .inr ⟨_, rfl, hreading (.error _) _ _ (@Watching.ledgerMoved task state (scansOf l).reads
        ⟨pool, tick, .error (.ledgerMoved first second)⟩ _ h.watching hfailed rfl rfl rfl) rfl⟩⟩
    · next hother heq =>
      cases heq
      refine ⟨_, _, rfl, .inr ⟨_, rfl, hreading (.error _) _ _ (@Watching.scanned task state (scansOf l).reads
        ⟨pool, tick, .error error⟩ _ h.watching hfailed rfl rfl ?_) rfl⟩⟩
      have hmoved : OracleRead.moved ⟨pool, tick, .error error⟩ = false := by
        unfold OracleRead.moved
        split
        · next first second heq =>
          cases heq
          exact absurd rfl (hother first second)
        · rfl
      simp [booked_append, OracleRead.booked, hmoved]

/-! ## A turn -/

/-- How a share of a turn leaves the scans: settled, or with the flag it was
writing. -/
def Shared (task : AuctioneerTask) (tick : LedgerTick) {α : Type} (Q : α → Scans → Prop) (l : List (Entry TaskCall.Answer))
    (r : Except StoreError (α × AuctioneerState)) : Prop :=
  (∀ a state, r = .ok (a, state) → task.Settled tick state (scansOf l) ∧ Q a (scansOf l)) ∧
  ∀ error, r = .error error → (scansOf l).flagged <+: task.owed (scansOf l).reads

/-- Writing the flags of a read, one after the other. -/
theorem flags_keep {moves : List (Nat × Side)}
    (h : task.Reading pool tick state (moves.map (Flag.of pool tick)) (scansOf l)) :
    Keeps A task.Scanning (task.Shared tick fun _ => task.Looked pool) l
      ((moves.forM fun (index, side) => write (.flagExposed pool index side tick.sequence)).carried (task.carryOut submit)
        state) := by
  induction moves generalizing l with
  | nil =>
    refine ⟨fun a state' heq => ?_, fun _ heq => by cases heq⟩
    cases heq
    have hflagged := h.flagged
    rw [List.map_nil, List.append_nil] at hflagged
    refine ⟨⟨h.current, h.watching, h.allDue, hflagged⟩, fun tick' htick => ?_⟩
    rw [h.current] at htick
    cases htick
    exact .inr h.looked
  | cons first rest ih =>
    obtain ⟨index, side⟩ := first
    have hseen : ∀ answer : Except StoreError Unit,
        scansOf (l ++ [(⟨.write (.flagExposed pool index side tick.sequence), answer⟩ : Entry TaskCall.Answer)]) =
          { scansOf l with flagged := (scansOf l).flagged ++ [⟨pool, index, side, tick.sequence⟩] } :=
      fun answer => scansOf_append _
    have howed := h.flagged
    rw [List.map_cons, ← List.singleton_append, ← List.append_assoc] at howed
    refine ⟨⟨h.allDue, _, howed⟩, fun answer _ => ?_⟩
    cases answer with
    | ok done =>
      refine ih ?_
      rw [hseen]
      exact ⟨h.current, h.watching, h.allDue, howed, h.looked⟩
    | error error =>
      refine ⟨fun _ _ heq => (by cases heq), fun _ _ => ?_⟩
      rw [hseen]
      exact ⟨_, howed⟩

theorem oracle_keeps {fuel : Nat} (h : task.Settled tick state (scansOf l)) :
    Keeps A task.Scanning (task.Shared tick fun _ => task.Looked pool) l
      ((task.turn pool tick state fuel).oracle.carried (task.carryOut submit) state) := by
  unfold Turn.oracle
  split
  · next hdue =>
    refine Keeps.bind (moves_reads h hdue) (fun l' answer hread => ?_) fun l' error hread => ?_
    · obtain ⟨a, state', heq, ⟨moves, rfl, hreading⟩ | ⟨error, rfl, hreading⟩⟩ := hread
      · cases heq
        exact flags_keep hreading
      · cases heq
        exact @flags_keep task A l' tick pool submit state' [] hreading
    · obtain ⟨a, state', heq, -⟩ := hread
      cases heq
  · next hdue =>
    refine ⟨fun a state' heq => ?_, fun _ heq => by cases heq⟩
    cases heq
    refine ⟨h, fun tick' htick => .inl ?_⟩
    rw [h.current] at htick
    cases htick
    rw [← h.watching.last]
    exact Bool.eq_false_iff.2 hdue

/-- A share beside the oracle scan leaves the scans settled. -/
theorem beside_keeps {α : Type} {m : Rechecking α} (hm : Keeps (fun _ _ _ => True) (AsksBeside pool tick) (fun _ _ => True) [] m)
    (h : task.Settled tick state (scansOf l)) {Q : Scans → Prop} (hQ : Q (scansOf l)) :
    Keeps A task.Scanning (task.Shared tick fun _ => Q) l (m.carried (task.carryOut submit) state) := by
  have hplain : ∀ l' o, Unseen (scansOf l) l' → o.plain = true → task.Scanning l' o := by
    intro l' o hl' ho
    have hdue := h.allDue
    rw [← hl'] at hdue
    cases o with
    | needing pool limit => cases ho
    | write statement => cases statement <;> first | exact hdue | cases ho
    | borrow => exact hdue
    | changed => exact hdue
    | stopping => exact hdue
    | below pool threshold limit after => exact hdue
    | reading call => exact hdue
    | acting call => exact hdue
    | creation attempt => exact hdue
    | notify notification => exact hdue
  refine (beside_unseen hplain hm rfl).mono (fun _ _ h => h) fun l' r hr => ⟨fun a state' heq => ?_, fun error heq => ?_⟩
  · rw [hr.2 a state' heq, hr.1]
    exact ⟨h, hQ⟩
  · rw [hr.1, h.flagged]

theorem poolTick_settled {fuel : Nat} (h : task.Settled tick state (scansOf l)) :
    Keeps A task.Scanning (fun l' r => (∀ state', r = .ok (some state') → task.Settled tick state' (scansOf l')) ∧
      (r = .ok none → (scansOf l').flagged = task.owed (scansOf l').reads) ∧
      ∀ error, r = .error error → (scansOf l').flagged <+: task.owed (scansOf l').reads) l
      (task.poolTick submit tick fuel pool state) := by
  have hfailed : ∀ {α : Type} {Q : α → Scans → Prop} {l : List (Entry TaskCall.Answer)} {error : StoreError},
      task.Shared tick Q l (.error error) → (∀ state', (.error error : Except StoreError (Option AuctioneerState)) =
        .ok (some state') → task.Settled tick state' (scansOf l)) ∧
      ((.error error : Except StoreError (Option AuctioneerState)) = .ok none →
        (scansOf l).flagged = task.owed (scansOf l).reads) ∧
      ∀ error', (.error error : Except StoreError (Option AuctioneerState)) = .error error' →
        (scansOf l).flagged <+: task.owed (scansOf l).reads :=
    fun hshared => ⟨fun _ heq => (by cases heq), fun heq => (by cases heq), fun _ _ => hshared.2 _ rfl⟩
  let turn := task.turn pool tick state fuel
  refine (oracle_keeps h).bind (fun l answer hshared => ?_) fun _ _ hshared => hfailed hshared
  obtain ⟨_, state⟩ := answer
  obtain ⟨hsettled, hlooked⟩ := hshared.1 _ _ rfl
  refine (beside_keeps (@Turn.scan_asks [] turn) hsettled hlooked).bind (fun l answer hshared => ?_) fun _ _ hshared =>
    hfailed hshared
  obtain ⟨ended, state⟩ := answer
  obtain ⟨hsettled, hlooked⟩ := hshared.1 _ _ rfl
  cases ended with
  | false => exact ⟨fun _ heq => (by cases heq), fun _ => hsettled.flagged, fun _ heq => by cases heq⟩
  | true =>
    have hseen : ∀ answer : Except StoreError (List TrackedUser),
        scansOf (l ++ [(⟨.needing pool turn.limit, answer⟩ : Entry TaskCall.Answer)]) = scansOf l :=
      fun answer => scansOf_append _
    refine Keeps.bind_call ⟨hsettled.allDue, hlooked, hsettled.flagged⟩ fun answer _ => ?_
    refine Keeps.bind_lift (fun batch _ => ?_) fun error _ => ?_
    · have hscanned : ∀ scanned : AuctioneerState, scanned.priceWatches = state.priceWatches →
          scanned.lastOracleScan = state.lastOracleScan → scanned.oracleScanRetried = state.oracleScanRetried →
          task.Settled tick scanned (scansOf (l ++ [(⟨.needing pool turn.limit, answer⟩ : Entry TaskCall.Answer)])) := by
        intro scanned hwatches hlast hretried
        rw [hseen]
        refine ⟨hsettled.current, ⟨fun pool' => ?_, fun pool' => ?_, fun pool' => ?_⟩, hsettled.allDue, hsettled.flagged⟩
        · rw [← hsettled.watching.watches, watchOf, watchOf, hwatches]
        · rw [← hsettled.watching.last, hlast]
        · rw [← hsettled.watching.retried, hretried]
      refine (beside_keeps (Q := fun _ => True) recheckBatch_asks (hscanned _ ?_ ?_ ?_) trivial).bind (fun l answer hshared => ?_)
        fun _ _ hshared => hfailed hshared
      · split <;> rfl
      · split <;> rfl
      · split <;> rfl
      · refine ⟨fun state' heq => ?_, fun heq => (by cases heq), fun _ heq => by cases heq⟩
        cases heq
        exact (hshared.1 _ _ rfl).1
    · refine ⟨fun _ heq => (by cases heq), fun heq => (by cases heq), fun _ _ => ?_⟩
      rw [hseen, hsettled.flagged]

/-! ## Runs -/

/-- Where the scans stand between ticks. -/
def Paced (task : AuctioneerTask) (state : AuctioneerState) (scans : Scans) : Prop :=
  task.Watching state scans.reads ∧ task.AllDue scans.reads ∧ scans.flagged = task.owed scans.reads

theorem paced_start : task.Paced {} (scansOf []) := by
  refine ⟨⟨fun pool => ?_, fun pool => ?_, fun pool => ?_⟩, fun before read after heq => ?_, rfl⟩
  · simp [watchOf, watchAfter, freshWatch, scansOf]
  · simp [booked, scansOf]
  · simp [booked, scansOf]
  · simp [scansOf] at heq

theorem carried_scans {fuel : Nat} :
    task.Carried fuel (fun _ _ _ => True) task.Scanning
      (fun l r => (r = .ok () → (scansOf l).flagged = task.owed (scansOf l).reads) ∧
        (scansOf l).flagged <+: task.owed (scansOf l).reads) (fun state l => task.Paced state (scansOf l))
      fun _ tick state l => task.Settled tick state (scansOf l) where
  waits := by
    intro state l o ho h
    rcases ho with rfl | rfl
    all_goals
      refine ⟨h.2.1, fun a _ => ?_⟩
      rw [scansOf_plain rfl]
      exact h
  takes := by
    rintro state l ⟨hwatching, hdue, hflagged⟩
    refine ⟨hdue, fun tick _ => ?_⟩
    have hseen : scansOf (l ++ [(⟨.borrow, tick⟩ : Entry TaskCall.Answer)]) = { scansOf l with tick := some tick } :=
      scansOf_append _
    rw [hseen]
    exact ⟨rfl, ⟨hwatching.watches, hwatching.last, hwatching.retried⟩, hdue, hflagged⟩
  looks := by
    intro submit tick state l h
    refine ⟨h.allDue, fun a _ => ?_⟩
    rw [scansOf_plain rfl]
    exact h
  turns := by
    intro submit tick state l pool _ h
    refine (poolTick_settled h).mono (fun _ _ h => h) fun l' r hr => ⟨hr.1, fun heq => ?_, fun error heq => ?_⟩
    · have hflagged := hr.2.1 heq
      exact ⟨fun _ => hflagged, hflagged ▸ List.prefix_rfl⟩
    · exact ⟨fun heq => (by cases heq), hr.2.2 error heq⟩
  back h := ⟨h.watching, h.allDue, h.flagged⟩
  ends := by
    rintro state l ⟨-, -, hflagged⟩
    exact ⟨fun _ => hflagged, hflagged ▸ List.prefix_rfl⟩

/-- A flag for a price move is the next one owed, and a batch is read with none
owed. -/
def Flagging (task : AuctioneerTask) (l : List (Entry TaskCall.Answer)) : TaskCall → Prop
  | .write (.flagExposed pool index side ledger) =>
    (scansOf l).flagged ++ [⟨pool, index, side, ledger⟩] <+: task.owed (scansOf l).reads
  | .needing _ _ => (scansOf l).flagged = task.owed (scansOf l).reads
  | _ => True

/-- **Every price move is flagged once.** In every run of the task, the flags
that price moves are given are those its reads owe: for each read that was
answered, in order, the moves it shows against the reads of its pool before it,
each on the side it hurts. None is written twice or before its turn, no batch is
read while one is owed, and only a store failure leaves one unwritten. -/
theorem price_moves_flagged_once (task : AuctioneerTask) (ticks fuel : Nat) :
    Keeps (fun _ _ _ => True) task.Flagging
      (fun l r => (r = .ok () → (scansOf l).flagged = task.owed (scansOf l).reads) ∧
        (scansOf l).flagged <+: task.owed (scansOf l).reads) [] (task.auctioneerLoop ticks fuel) := by
  refine (carried_scans.loop paced_start).mono (fun l o h => ?_) fun _ _ h => h
  cases o with
  | write statement => cases statement <;> first | exact h.2 | trivial
  | needing pool limit => exact h.2.2
  | changed => trivial
  | borrow => trivial
  | stopping => trivial
  | below pool threshold limit after => trivial
  | reading call => trivial
  | acting call => trivial
  | creation attempt => trivial
  | notify notification => trivial

end AuctioneerTask

/-! ## The scans of one pool, by period -/

section Periods

variable {period : Nat → Nat} {reads : List OracleRead} {first read : OracleRead} {books : Option Nat × Bool}

/-- In no period are there three reads, and a second one only after one the
ledger moved under. -/
def Sparing (period : Nat → Nat) (reads : List OracleRead) : Prop :=
  ∀ p, let inPeriod := reads.filter fun read => period read.tick.sequence = p
    inPeriod.length ≤ 2 ∧ ∀ read ∈ inPeriod.dropLast, read.moved = true

/-- A pool's reads, each due by the books before it, and the books they leave. -/
inductive Booking (period : Nat → Nat) : List OracleRead → Option Nat × Bool → Prop
  | none : Booking period [] (none, false)
  /-- The last one is owed its retry: it alone is of its period so far. -/
  | retrying {reads : List OracleRead} {last : OracleRead} {recorded : Option Nat} : last.moved = true →
    (∀ read ∈ reads, period read.tick.sequence < period last.tick.sequence) →
    (∀ ledger, recorded = some ledger → period ledger < period last.tick.sequence) → Sparing period reads →
    Booking period (reads ++ [last]) (recorded, true)
  | recorded {reads : List OracleRead} {last : OracleRead} :
    (∀ read ∈ reads ++ [last], period read.tick.sequence ≤ period last.tick.sequence) → Sparing period (reads ++ [last]) →
    Booking period (reads ++ [last]) (some last.tick.sequence, false)

theorem Sparing.next (h : Sparing period reads) (hnew : ∀ r ∈ reads, period r.tick.sequence < period read.tick.sequence) :
    Sparing period (reads ++ [read]) := by
  intro p
  obtain ⟨hlength, hmoved⟩ := h p
  dsimp only at hlength hmoved ⊢
  rw [List.filter_append]
  by_cases hp : period read.tick.sequence = p
  · have hnone : (reads.filter fun r => period r.tick.sequence = p) = [] := by
      refine List.filter_eq_nil_iff.2 fun r hr => ?_
      have hless := hnew r hr
      rw [decide_eq_true_eq]
      omega
    rw [hnone]
    simp [hp]
  · have hnone : ([read].filter fun r => period r.tick.sequence = p) = [] := by simp [hp]
    rw [hnone, List.append_nil]
    exact ⟨hlength, hmoved⟩

theorem Sparing.retried (h : Sparing period reads) (hfirst : ∀ r ∈ reads, period r.tick.sequence < period first.tick.sequence)
    (hmoved : first.moved = true) (hle : period first.tick.sequence ≤ period read.tick.sequence) :
    Sparing period (reads ++ [first] ++ [read]) := by
  rcases Nat.lt_or_eq_of_le hle with hless | hsame
  · refine (h.next hfirst).next fun r hr => ?_
    rcases List.mem_append.1 hr with hr | hr
    · exact (hfirst r hr).trans hless
    · rw [List.mem_singleton.1 hr]
      exact hless
  · intro p
    obtain ⟨hlength, hmoved'⟩ := h p
    dsimp only at hlength hmoved' ⊢
    rw [List.append_assoc, List.filter_append]
    by_cases hp : period read.tick.sequence = p
    · have hnone : (reads.filter fun r => period r.tick.sequence = p) = [] := by
        refine List.filter_eq_nil_iff.2 fun r hr => ?_
        have hless := hfirst r hr
        rw [decide_eq_true_eq]
        omega
      rw [hnone]
      simp [hp, hsame, hmoved]
    · have hnone : (([first] ++ [read]).filter fun r => period r.tick.sequence = p) = [] := by simp [hp, hsame]
      rw [hnone, List.append_nil]
      exact ⟨hlength, hmoved'⟩

theorem Booking.sparing (h : Booking period reads books) : Sparing period reads := by
  cases h with
  | none => exact fun p => ⟨Nat.zero_le 2, fun read hread => by cases hread⟩
  | retrying _ hnew _ hsparing => exact hsparing.next hnew
  | recorded _ hsparing => exact hsparing

/-- One more read, due by the books. -/
theorem Booking.next (h : Booking period reads books)
    (hdue : ∀ ledger, books.1 = some ledger → period ledger < period read.tick.sequence)
    (hforward : ∀ r ∈ reads, period r.tick.sequence ≤ period read.tick.sequence) :
    Booking period (reads ++ [read]) (read.booked books) := by
  have hle : ∀ r ∈ reads ++ [read], period r.tick.sequence ≤ period read.tick.sequence := by
    intro r hr
    rcases List.mem_append.1 hr with hr | hr
    · exact hforward r hr
    · rw [List.mem_singleton.1 hr]
  unfold OracleRead.booked
  cases h with
  | none =>
    have hempty : Sparing period [] := fun p => ⟨Nat.zero_le 2, fun r hr => by cases hr⟩
    cases hmoved : read.moved with
    | true => exact .retrying hmoved (fun r hr => by cases hr) (fun _ heq => by cases heq) hempty
    | false => exact .recorded hle (hempty.next fun r hr => by cases hr)
  | retrying hmoved hnew _ hsparing =>
    rw [Bool.not_true, Bool.and_false, if_neg Bool.false_ne_true]
    refine .recorded hle (hsparing.retried hnew hmoved (hforward _ ?_))
    exact List.mem_append_right _ (List.mem_singleton_self _)
  | @recorded earlier last hle' hsparing =>
    have hless := hdue _ rfl
    have hnew : ∀ r ∈ earlier ++ [last], period r.tick.sequence < period read.tick.sequence := fun r hr =>
      (hle' r hr).trans_lt hless
    cases hmoved : read.moved with
    | true =>
      refine .retrying hmoved hnew (fun ledger heq => ?_) hsparing
      cases heq
      exact hless
    | false => exact .recorded hle (hsparing.next hnew)

end Periods

/-- What one call adds: a tick, or a read at the last one, or nothing. -/
theorem Scans.see_cases (scans : Scans) (e : Entry TaskCall.Answer) :
    (∃ tick, e = ⟨.borrow, tick⟩ ∧ scans.see e = { scans with tick := some tick }) ∨
    e.1.borrows = false ∧ (scans.see e).tick = scans.tick ∧
      ((scans.see e).reads = scans.reads ∨
        ∃ read, (scans.see e).reads = scans.reads ++ [read] ∧ scans.tick = some read.tick) := by
  obtain ⟨o, a⟩ := e
  cases o with
  | borrow => exact .inl ⟨a, rfl, rfl⟩
  | write statement => cases statement <;> exact .inr ⟨rfl, rfl, .inl rfl⟩
  | reading call =>
    cases call with
    | auction pool account auctionType => exact .inr ⟨rfl, rfl, .inl rfl⟩
    | snapshot pool users =>
      cases users with
      | cons user rest => exact .inr ⟨rfl, rfl, .inl rfl⟩
      | nil =>
        refine .inr ⟨rfl, rfl, ?_⟩
        cases htick : scans.tick with
        | none => exact .inl (by simp [Scans.see, htick])
        | some tick => exact .inr ⟨⟨pool, tick, a⟩, by simp [Scans.see, htick], rfl⟩
  | changed => exact .inr ⟨rfl, rfl, .inl rfl⟩
  | stopping => exact .inr ⟨rfl, rfl, .inl rfl⟩
  | needing pool limit => exact .inr ⟨rfl, rfl, .inl rfl⟩
  | below pool threshold limit after => exact .inr ⟨rfl, rfl, .inl rfl⟩
  | acting call => exact .inr ⟨rfl, rfl, .inl rfl⟩
  | creation attempt => exact .inr ⟨rfl, rfl, .inl rfl⟩
  | notify notification => exact .inr ⟨rfl, rfl, .inl rfl⟩

theorem le_last {ticks : List LedgerTick} {last tick : LedgerTick}
    (h : ticks.Pairwise fun t t' => t.sequence ≤ t'.sequence) (hlast : ticks.getLast? = some last) (htick : tick ∈ ticks) :
    tick.sequence ≤ last.sequence := by
  obtain ⟨earlier, rfl⟩ := List.getLast?_eq_some_iff.1 hlast
  rcases List.mem_append.1 htick with htick | htick
  · exact (List.pairwise_append.1 h).2.2 tick htick last (List.mem_singleton_self _)
  · rw [List.mem_singleton.1 htick]

/-- The reads are made at the ticks, in their order. -/
theorem scansOf_ticks (l : List (Entry TaskCall.Answer)) : (scansOf l).tick = (ticksOf l).getLast? ∧
    (∀ read ∈ (scansOf l).reads, read.tick ∈ ticksOf l) ∧
    ((ticksOf l).Pairwise (fun t t' => t.sequence ≤ t'.sequence) →
      (scansOf l).reads.Pairwise fun r r' => r.tick.sequence ≤ r'.tick.sequence) := by
  induction l using List.reverseRecOn with
  | nil => exact ⟨rfl, fun read hread => (by cases hread), fun _ => .nil⟩
  | append_singleton l e ih =>
    obtain ⟨hlast, hmem, hordered⟩ := ih
    rw [scansOf_append]
    rcases (scansOf l).see_cases e with ⟨tick, rfl, hsee⟩ | ⟨hother, htick, hreads⟩
    · have hticks : ticksOf (l ++ [⟨.borrow, tick⟩]) = ticksOf l ++ [tick] := AuctioneerTask.ticksOf_append
      rw [hsee, hticks]
      refine ⟨by simp, fun read hread => List.mem_append_left _ (hmem read hread), fun h => hordered ?_⟩
      exact (List.pairwise_append.1 h).1
    · have hsame : ticksOf (l ++ [e]) = ticksOf l := by
        have hnone : ticksOf [e] = [] := AuctioneerTask.ticksOf_of_not fun e' he' => by
          rw [List.mem_singleton.1 he']; exact hother
        rw [AuctioneerTask.ticksOf_append, hnone, List.append_nil]
      rw [htick, hsame]
      rcases hreads with hreads | ⟨read, hreads, hat⟩
      · rw [hreads]
        exact ⟨hlast, hmem, hordered⟩
      · have hread : read.tick ∈ ticksOf l := List.mem_of_getLast? (by rw [← hlast, hat])
        rw [hreads]
        refine ⟨hlast, fun r hr => ?_, fun h => List.pairwise_append.2 ⟨hordered h, List.pairwise_singleton _ _, ?_⟩⟩
        · rcases List.mem_append.1 hr with hr | hr
          · exact hmem r hr
          · rw [List.mem_singleton.1 hr]
            exact hread
        · intro r hr r' hr'
          rw [List.mem_singleton.1 hr']
          exact le_last h (hlast ▸ hat) (hmem r hr)

namespace AuctioneerTask

variable {task : AuctioneerTask} {l : List (Entry TaskCall.Answer)} {pool : String} {reads : List OracleRead}

/-- The phased period of the oracle scan a ledger is in. -/
def scanPeriod (task : AuctioneerTask) (ledger : Nat) : Nat :=
  (ledger + task.cadence.oraclePhase) % 2 ^ 32 / task.cadence.oracleScanLedgers

/-- The ticks never go back to an earlier period: they are in order, and `u32`
holds their phased ledgers. -/
def Forward (task : AuctioneerTask) (l : List (Entry TaskCall.Answer)) : Prop :=
  (ticksOf l).Pairwise (fun t t' => t.sequence ≤ t'.sequence) ∧
    ∀ tick ∈ ticksOf l, tick.sequence + task.cadence.oraclePhase < 2 ^ 32

theorem scanDue_iff {ledger phase period : Nat} {last : Option Nat} : scanDue ledger last phase period = true ↔
    period ≠ 0 ∧ ∀ scanned, last = some scanned →
      (scanned + phase) % 2 ^ 32 / period < (ledger + phase) % 2 ^ 32 / period := by
  unfold scanDue
  cases last <;> simp

/-- A pool's reads are booked as they were due. -/
theorem AllDue.booking (h : task.AllDue reads)
    (hforward : reads.Pairwise fun r r' => task.scanPeriod r.tick.sequence ≤ task.scanPeriod r'.tick.sequence) (pool : String) :
    Booking task.scanPeriod (reads.filter (·.pool = pool)) (booked pool reads) := by
  induction reads using List.reverseRecOn with
  | nil => exact .none
  | append_singleton reads read ih =>
    obtain ⟨hforward, -, hlast⟩ := List.pairwise_append.1 hforward
    have hbefore := ih (fun before r after heq => h before r (after ++ [read]) (by rw [heq]; simp)) hforward
    rw [booked_append, List.filter_append]
    split
    · next hpool =>
      have hone : [read].filter (·.pool = pool) = [read] := by simp [hpool]
      rw [hone]
      refine hbefore.next (fun ledger hledger => ?_) fun r hr => hlast r (List.mem_of_mem_filter hr) read List.mem_cons_self
      have hdue := h reads read [] rfl
      rw [hpool] at hdue
      exact (scanDue_iff.1 hdue).2 ledger hledger
    · next hpool =>
      have hnone : [read].filter (·.pool = pool) = [] := by simp [hpool]
      rw [hnone, List.append_nil]
      exact hbefore

theorem Forward.le {tick tick' : LedgerTick} (h : task.Forward l) (htick' : tick' ∈ ticksOf l)
    (hle : tick.sequence ≤ tick'.sequence) : task.scanPeriod tick.sequence ≤ task.scanPeriod tick'.sequence := by
  have hfits := h.2 tick' htick'
  unfold scanPeriod
  rw [Nat.mod_eq_of_lt hfits, Nat.mod_eq_of_lt (by omega)]
  exact Nat.div_le_div_right (by omega)

theorem Forward.booking (h : task.Forward l) (hdue : task.AllDue (scansOf l).reads) (pool : String) :
    Booking task.scanPeriod ((scansOf l).reads.filter (·.pool = pool)) (booked pool (scansOf l).reads) := by
  obtain ⟨-, hmem, hordered⟩ := scansOf_ticks l
  refine hdue.booking (List.Pairwise.imp_of_mem (fun _ hr' hle => h.le (hmem _ hr') hle) (hordered h.1)) pool

/-- When a pool's borrowers are read, its prices were in the same period. -/
theorem Forward.looked {tick : LedgerTick} (h : task.Forward l) (hdue : task.AllDue (scansOf l).reads)
    (hlooked : task.Looked pool (scansOf l)) (htick : (scansOf l).tick = some tick)
    (hperiod : task.cadence.oracleScanLedgers ≠ 0) :
    ∃ read ∈ (scansOf l).reads, read.pool = pool ∧ task.scanPeriod read.tick.sequence = task.scanPeriod tick.sequence := by
  obtain ⟨hlast, hmem, -⟩ := scansOf_ticks l
  rw [htick] at hlast
  have hcurrent : tick ∈ ticksOf l := List.mem_of_getLast? hlast.symm
  have hle : ∀ read ∈ (scansOf l).reads, task.scanPeriod read.tick.sequence ≤ task.scanPeriod tick.sequence :=
    fun read hread => h.le hcurrent (le_last h.1 hlast.symm (hmem read hread))
  rcases hlooked tick htick with hnot | ⟨read, hread, hpool, hat⟩
  · have hbooking := h.booking hdue pool
    have hlate : ∃ ledger, (booked pool (scansOf l).reads).1 = some ledger ∧
        task.scanPeriod tick.sequence ≤ task.scanPeriod ledger := by
      by_contra hnone
      refine absurd (scanDue_iff.2 ⟨hperiod, fun scanned hscanned => ?_⟩) (Bool.eq_false_iff.1 hnot)
      by_contra hge
      exact hnone ⟨scanned, hscanned, not_lt.1 hge⟩
    obtain ⟨ledger, hledger, hperiods⟩ := hlate
    generalize hreads : (scansOf l).reads.filter (·.pool = pool) = reads at hbooking
    generalize booked pool (scansOf l).reads = books at hbooking hledger
    have hof : ∀ read ∈ reads, read ∈ (scansOf l).reads ∧ read.pool = pool := by
      intro read hread
      rw [← hreads, List.mem_filter, decide_eq_true_eq] at hread
      exact hread
    cases hbooking with
    | none => cases hledger
    | @retrying earlier last recorded _ _ hbefore _ =>
      have hless := hbefore ledger hledger
      have hlast := hle last (hof last (List.mem_append_right _ (List.mem_singleton_self _))).1
      omega
    | @recorded earlier last _ _ =>
      cases hledger
      obtain ⟨hread, hpool⟩ := hof last (List.mem_append_right _ (List.mem_singleton_self _))
      exact ⟨last, hread, hpool, le_antisymm (hle last hread) hperiods⟩
  · exact ⟨read, hread, hpool, by rw [hat]⟩

/-- **The oracle is read once a period, and once more.** In every run of the
task whose ticks go forward, their phased ledgers in a `u32`, no pool's prices
are read more than twice in one phased period, and a second time only where the
first read found the ledger moved; and no batch of a pool's borrowers is read in
a period in which its prices were not. -/
theorem oracle_read_by_period (task : AuctioneerTask) (ticks fuel : Nat) (pool : String) :
    Keeps (fun _ _ _ => True) (fun l o => task.Forward l →
      Sparing task.scanPeriod ((scansOf l).reads.filter (·.pool = pool)) ∧
      ∀ limit tick, o = .needing pool limit → (scansOf l).tick = some tick → task.cadence.oracleScanLedgers ≠ 0 →
        ∃ read ∈ (scansOf l).reads, read.pool = pool ∧
          task.scanPeriod read.tick.sequence = task.scanPeriod tick.sequence) (fun _ _ => True) []
      (task.auctioneerLoop ticks fuel) := by
  refine (carried_scans.loop paced_start).mono (fun l o h hforward => ?_) fun _ _ _ => trivial
  have hdue := h.allDue
  refine ⟨(hforward.booking hdue pool).sparing, ?_⟩
  rintro limit tick rfl htick hperiod
  exact hforward.looked hdue h.2.1 htick hperiod

end AuctioneerTask

end BlendLiquidator
