/-
A snapshot is one ledger's: each call of the attempt that made it was answered
at the ledger it carries, and what it holds is what those calls answered.
-/
import BlendLiquidator.PoolReader
import BlendLiquidator.Results
import BlendLiquidator.TreeMaps

namespace BlendLiquidator

open Oracle

/-- What a call asks for. -/
inductive ReaderCall
  | entries (keys : List LedgerKey)
  | view (call : ViewCall)

def Read.asked : Read → ReaderCall
  | .entries keys _ => .entries keys
  | .view call _ => .view call

/-- The call was answered, at `ledger`. -/
def Read.At (ledger : Nat) : Read → Prop
  | .entries _ (.ok raw) => raw.latestLedger = ledger
  | .view _ (.ok simulation) => simulation.latestLedger = ledger
  | .entries _ (.error _) | .view _ (.error _) => False

/-- Every call was. -/
def ReadAt (ledger : Nat) (reads : List Read) : Prop := ∀ read ∈ reads, read.At ledger

/-- The entries a call answered. -/
def Read.answered : Read → List (LedgerKey × Except XdrError LedgerEntryData)
  | .entries _ (.ok raw) => raw.entries
  | _ => []

/-- The entry that calls answered for a key; the last one, where there are two. -/
def returned (reads : List Read) (key : LedgerKey) : Option (Except XdrError LedgerEntryData) :=
  ((reads.flatMap Read.answered).reverse.find? fun entry => entry.1 = key).map (·.2)

namespace PoolReader

variable {env : Nat → ReaderMoment} {reads : List Read} {pool : String} {users : List String}

theorem readAt_append {ledger : Nat} {more : List Read} (h : ReadAt ledger reads) (hmore : ReadAt ledger more) :
    ReadAt ledger (reads ++ more) := by
  intro read hread
  rcases List.mem_append.1 hread with hread | hread
  · exact h read hread
  · exact hmore read hread

theorem readAt_singleton {ledger : Nat} {read : Read} (h : read.At ledger) : ReadAt ledger [read] := by
  intro other hother
  rw [List.mem_singleton] at hother
  exact hother ▸ h

theorem fetch_gives {α : Type} {method : ReaderMoment → Except RpcError α} {read : Except RpcError α → Read} :
    Gives env (· = reads) (fetch method read) fun a after => after = reads ++ [read (.ok a)] := by
  intro t s hs a ha
  subst hs
  show (Prog.lift ((method (env t)).mapError RpcError.chain) env (t + 1) (s ++ [read (method (env t))])).2.2 = _
  replace ha : (Prog.lift ((method (env t)).mapError RpcError.chain) env (t + 1)
    (s ++ [read (method (env t))])).1 = .ok a := ha
  cases hm : method (env t) with
  | error error =>
    rw [hm] at ha
    cases ha
  | ok b =>
    rw [hm] at ha
    cases ha
    rfl

/-! ## Entries -/

/-- Where every entry decodes, the decoded ones are the entries. -/
theorem mapM_decoded {entries : List (LedgerKey × Except XdrError LedgerEntryData)} :
    ∀ {decoded : List (LedgerKey × LedgerEntryData)},
      (entries.mapM fun entry => do pure (entry.1, ← entry.2.mapError ChainError.xdr) :
        Except ChainError (List (LedgerKey × LedgerEntryData))) = .ok decoded →
      decoded.map (fun entry => (entry.1, Except.ok entry.2)) = entries := by
  induction entries with
  | nil =>
    intro decoded h
    rw [List.mapM_nil, Results.pure_ok_iff] at h
    rw [← h]
    rfl
  | cons entry entries ih =>
    intro decoded h
    simp only [List.mapM_cons, Results.bind_ok_iff, Results.pure_ok_iff, Results.mapError_ok_iff] at h
    obtain ⟨first, ⟨data, hdata, hfirst⟩, rest, hrest, hdecoded⟩ := h
    rw [← hdecoded, ← hfirst, List.map_cons, ih hrest, ← hdata]

/-- What the batches read so far say of the record. -/
def BatchedAt (keys : List LedgerKey) (before : List Read) (done : List (List LedgerKey)) (read : Batched)
    (after : List Read) : Prop :=
  ∃ batches, after = before ++ batches ∧ batches.map Read.asked = done.map .entries ∧
    read.entries.map (fun entry => (entry.1, Except.ok entry.2)) =
      (batches.flatMap Read.answered).filter (fun entry => entry.1 ∈ keys) ∧
    match read.latestLedger with
    | none => batches = []
    | some ledger => ReadAt ledger batches

theorem readBatch_gives {keys batch : List LedgerKey} {done : List (List LedgerKey)} {read : Batched} :
    Gives env (BatchedAt keys reads done read) (readBatch keys read batch)
      (BatchedAt keys reads (done ++ [batch])) := by
  unfold readBatch
  intro t s hs
  refine Gives.bind fetch_gives (fun raw => ?_) t s rfl
  refine Gives.bind_lift fun ledger hledger => Gives.bind_lift fun entries hentries => Gives.pure ?_
  intro after hafter
  obtain ⟨batches, hbatches, hasked, hanswered, hread⟩ := hs
  have hdecoded := mapM_decoded hentries
  refine ⟨batches ++ [.entries batch (.ok raw)], by simp [hafter, hbatches], by simp [hasked, Read.asked], ?_, ?_⟩
  · simp [hanswered, hdecoded, Read.answered]
  · unfold Batched.ledgerWith at hledger
    -- The first batch sets the ledger, and every later one agrees with it.
    cases hfirst : read.latestLedger with
    | none =>
      rw [hfirst] at hledger hread
      cases hledger
      subst hread
      exact readAt_singleton rfl
    | some first =>
      rw [hfirst] at hledger hread
      by_cases hsame : first = raw.latestLedger
      · have hok : Except.ok first = Except.ok (ε := ChainError) ledger := by simpa [hsame] using hledger
        cases hok
        exact readAt_append hread (readAt_singleton hsame.symm)
      · simp [hsame] at hledger

/-- The calls of a read of entries, and what it took from their answers. -/
structure EntriesRead (keys : List LedgerKey) (batches : List Read) (entries : LedgerEntries) : Prop where
  asked : batches.map Read.asked = (keys.toChunks ENTRY_BATCH).map .entries
  ledger : ReadAt entries.latestLedger batches
  found : ∀ key ∈ keys, returned batches key = (entries.get key).map .ok

theorem ledgerEntries_gives {keys : List LedgerKey} :
    Gives env (· = reads) (ledgerEntries keys) fun entries after =>
      ∃ batches, after = reads ++ batches ∧ EntriesRead keys batches entries := by
  unfold ledgerEntries
  by_cases hkeys : keys.isEmpty = true
  · rw [if_pos hkeys]
    exact Gives.fail
  rw [if_neg hkeys]
  refine Gives.bind (R := BatchedAt keys reads (keys.toChunks ENTRY_BATCH)) ?_ fun read => Gives.pure fun after hafter => ?_
  · let I (rest : List (List LedgerKey)) (read : Batched) (after : List Read) : Prop :=
      ∃ done, keys.toChunks ENTRY_BATCH = done ++ rest ∧ BatchedAt keys reads done read after
    refine Gives.conseq (Gives.foldlM (I := I) fun batch rest read => ?_) (fun s hs => ?_) fun read s hs => ?_
    · intro t s hs
      obtain ⟨done, hdone, hread⟩ := hs
      refine Gives.conseq readBatch_gives (fun _ h => h) (fun read after hafter => ?_) t s hread
      exact ⟨done ++ [batch], by simp [hdone], hafter⟩
    · exact ⟨[], by simp, [], by simp [hs], rfl, rfl, rfl⟩
    · obtain ⟨done, hdone, hread⟩ := hs
      rw [hdone, List.append_nil]
      exact hread
  · obtain ⟨batches, hbatches, hasked, hanswered, hread⟩ := hafter
    refine ⟨batches, hbatches, hasked, ?_, fun key hkey => ?_⟩
    · cases hledger : read.latestLedger with
      | none =>
        rw [hledger] at hread
        subst hread
        exact fun _ h => nomatch h
      | some ledger =>
        rw [hledger] at hread
        exact hread
    · -- Dropping what was not asked for drops nothing of a key that was.
      have hfind : (batches.flatMap Read.answered).reverse.find? (fun entry => entry.1 = key) =
          ((batches.flatMap Read.answered).filter (fun entry => entry.1 ∈ keys)).reverse.find?
            (fun entry => entry.1 = key) := by
        rw [← List.filter_reverse, List.find?_filter]
        congr 1
        funext entry
        by_cases hentry : entry.1 = key
        · simp [hentry, hkey]
        · simp [hentry]
      unfold returned LedgerEntries.get
      rw [hfind, ← hanswered, ← List.map_reverse, List.find?_map]
      simp [Function.comp_def]

theorem view_gives {call : ViewCall} :
    Gives env (· = reads) (view call) fun answer after =>
      ∃ read : Read, after = reads ++ [read] ∧ read.asked = .view call ∧ read.At answer.1 := by
  unfold view
  refine Gives.bind fetch_gives fun simulation => ?_
  split
  · exact Gives.pure fun after hafter => ⟨_, hafter, rfl, rfl⟩
  · exact Gives.fail

theorem sameLedger_ok {expected actual : Nat} (h : sameLedger expected actual = .ok ()) : expected = actual := by
  unfold sameLedger at h
  by_contra hne
  simp [hne] at h

/-! ## The shape and the prices -/

/-- The first read of an attempt. -/
structure Shaped (pool : String) (read : Read) (ledger : Nat) (poolInstance : PoolInstance) (assets : List String) :
    Prop where
  asked : read.asked = .entries [.poolInstance pool, .reserveList pool]
  ledger : read.At ledger
  poolInstance : ∃ data, returned [read] (.poolInstance pool) = some (.ok data) ∧ data.poolInstance = .ok poolInstance
  assets : ∃ data, returned [read] (.reserveList pool) = some (.ok data) ∧ data.reserveList = .ok assets

theorem present_ok {entry : Option LedgerEntryData} {missing : String} {data : LedgerEntryData}
    (h : present entry missing = .ok data) : entry = some data := by
  unfold present at h
  split at h
  · cases h
    rfl
  · cases h

theorem shape_gives :
    Gives env (· = []) (shape pool) fun answer after =>
      ∃ read, after = [read] ∧ Shaped pool read answer.1 answer.2.1 answer.2.2 := by
  unfold shape
  refine Gives.bind ledgerEntries_gives fun entries => ?_
  refine Gives.bind_lift fun first hfirst => Gives.bind_lift fun poolInstance hinstance => ?_
  refine Gives.bind_lift fun second hsecond => Gives.bind_lift fun assets hassets => Gives.pure fun after hafter => ?_
  obtain ⟨batches, hafter, hbatches⟩ := hafter
  rw [List.nil_append] at hafter
  subst hafter
  -- Two keys are one batch.
  have hone : after.map Read.asked = [.entries [.poolInstance pool, .reserveList pool]] := hbatches.asked
  obtain ⟨read, rfl⟩ : ∃ read, after = [read] := List.length_eq_one_iff.1 (by simpa using congrArg List.length hone)
  refine ⟨read, rfl, by simpa using hone, hbatches.ledger read (by simp), ⟨first, ?_, ?_⟩, ⟨second, ?_, ?_⟩⟩
  · rw [hbatches.found _ (by simp), present_ok hfirst]
    rfl
  · exact Results.mapError_ok_iff.1 hinstance
  · rw [hbatches.found _ (by simp), present_ok hsecond]
    rfl
  · exact Results.mapError_ok_iff.1 hassets

/-- The view calls made since `before`. -/
def ViewsRead (ledger : Nat) (before : List Read) (calls : List ViewCall) (after : List Read) : Prop :=
  ∃ views, after = before ++ views ∧ views.map Read.asked = calls.map .view ∧ ReadAt ledger views

/-- A view call checked against the ledger of what was read before it. -/
theorem view_same {β : Type} {ledger : Nat} {call : ViewCall} {calls : List ViewCall}
    {f : Nat × ViewValue → Fetch ChainError β} {Q : β → List Read → Prop}
    (h : ∀ answer, Gives env (ViewsRead ledger reads (calls ++ [call])) (f answer) Q) :
    Gives env (ViewsRead ledger reads calls) (view call >>= fun answer =>
      Prog.lift (sameLedger ledger answer.1) >>= fun _ => f answer) Q := by
  intro t s hs
  refine Gives.bind view_gives (fun answer => Gives.bind_lift fun _ hsame => ?_) t s rfl
  refine Gives.conseq (h answer) (fun after hafter => ?_) fun _ _ hq => hq
  obtain ⟨views, rfl, hviews, hread⟩ := hs
  obtain ⟨read, rfl, hasked, hat⟩ := hafter
  rw [← sameLedger_ok hsame] at hat
  exact ⟨views ++ [read], by simp, by simp [hviews, hasked], readAt_append hread (readAt_singleton hat)⟩

theorem lastprice_gives {oracle asset : String} {ledger : Nat} {calls : List ViewCall} {priced : Priced} :
    Gives env (ViewsRead ledger reads calls) (lastprice oracle ledger priced asset) fun _ =>
      ViewsRead ledger reads (calls ++ [.lastprice oracle asset]) := by
  refine view_same fun answer => Gives.bind_lift fun price _ => ?_
  cases price with
  | some price => exact Gives.pure fun _ h => h
  | none => exact Gives.pure fun _ h => h

theorem prices_gives {oracle : String} {assets : List String} {ledger : Nat} :
    Gives env (· = reads) (prices oracle assets ledger) fun _ =>
      ViewsRead ledger reads (.decimals oracle :: assets.map (.lastprice oracle)) := by
  have hnone : ∀ s, s = reads → ViewsRead ledger reads [] s := by
    intro s hs
    exact ⟨[], by simp [hs], rfl, fun _ h => nomatch h⟩
  refine Gives.conseq (view_same fun answer => Gives.bind_lift fun decimals _ => ?_) hnone fun _ _ h => h
  let I (rest : List String) (_ : Priced) (after : List Read) : Prop :=
    ∃ done, assets = done ++ rest ∧ ViewsRead ledger reads (.decimals oracle :: done.map (.lastprice oracle)) after
  refine Gives.bind (R := I []) (Gives.conseq (Gives.foldlM (I := I) fun asset rest priced => ?_) (fun s hs => ?_)
    fun _ _ h => h) fun priced => Gives.bind_lift fun _ _ => Gives.pure fun s hs => ?_
  · intro t s hs
    obtain ⟨done, rfl, hdone⟩ := hs
    refine Gives.conseq lastprice_gives (fun _ h => h) (fun priced after hafter => ?_) t s hdone
    exact ⟨done ++ [asset], by simp, by simpa using hafter⟩
  · exact ⟨[], rfl, hs⟩
  · obtain ⟨done, rfl, hdone⟩ := hs
    simpa using hdone

/-! ## Reserves and positions -/

/-- Reserves under their own index, and the index of each asset. -/
structure Keyed (reserves : BTreeMap Nat Reserve) (assetIndex : BTreeMap String Nat) : Prop where
  index : ∀ (i : Nat) (reserve : Reserve), reserves[i]? = some reserve → reserve.config.index = i
  inverse : ∀ (asset : String) (i : Nat), assetIndex[asset]? = some i ↔
    ∃ reserve : Reserve, reserves[i]? = some reserve ∧ reserve.asset = asset

/-- The configuration an asset's entry decodes to. -/
def ConfigOf (pool : String) (entries : LedgerEntries) (asset : String) (config : ReserveConfig) : Prop :=
  ∃ data, entries.get (.reserveConfig pool asset) = some data ∧ data.reserveConfig = .ok config

theorem ConfigOf.unique {entries : LedgerEntries} {asset : String} {config config' : ReserveConfig}
    (h : ConfigOf pool entries asset config) (h' : ConfigOf pool entries asset config') : config = config' := by
  obtain ⟨data, hdata, hconfig⟩ := h
  obtain ⟨data', hdata', hconfig'⟩ := h'
  rw [hdata] at hdata'
  cases hdata'
  rw [hconfig] at hconfig'
  cases hconfig'
  rfl

theorem decodeReserve_ok {entries : LedgerEntries} {r r' : Reserves} {asset : String}
    (h : decodeReserve pool entries r asset = .ok r') :
    ∃ reserve : Reserve, reserve.asset = asset ∧ ConfigOf pool entries asset reserve.config ∧
      reserve.config.index ∉ r.reserves ∧ r'.reserves = r.reserves.insert reserve.config.index reserve ∧
      r'.assetIndex = r.assetIndex.insert asset reserve.config.index := by
  unfold decodeReserve at h
  simp only [Results.bind_ok_iff, Results.mapError_ok_iff] at h
  obtain ⟨data, hdata, config, hconfig, _, _, _, _, reserve, hreserve, h⟩ := h
  have hnew : reserve.asset = asset ∧ reserve.config = config := by
    unfold Reserve.new at hreserve
    simp only [Results.bind_ok_iff, Results.pure_ok_iff] at hreserve
    obtain ⟨_, _, rfl⟩ := hreserve
    exact ⟨rfl, rfl⟩
  by_cases hindex : reserve.config.index ∈ r.reserves
  · simp [hindex, throw, throwThe, MonadExceptOf.throw, bind, Except.bind] at h
  · simp only [Std.ExtTreeMap.contains_iff_mem, hindex, if_false, Results.pure_ok_iff] at h
    subst h
    exact ⟨reserve, hnew.1, ⟨data, present_ok hdata, hnew.2 ▸ hconfig⟩, hindex, rfl, rfl⟩

theorem Keyed.insert {reserves : BTreeMap Nat Reserve} {assetIndex : BTreeMap String Nat} {reserve : Reserve}
    (h : Keyed reserves assetIndex) (hindex : reserve.config.index ∉ reserves)
    (hasset : ∀ (i : Nat) (other : Reserve), reserves[i]? = some other → other.asset ≠ reserve.asset) :
    Keyed (reserves.insert reserve.config.index reserve) (assetIndex.insert reserve.asset reserve.config.index) := by
  have hnone : reserves[reserve.config.index]? = none := Std.ExtTreeMap.getElem?_eq_none hindex
  refine ⟨fun i other hother => ?_, fun asset i => ?_⟩
  · rw [TreeMaps.getElem?_insert] at hother
    by_cases hi : reserve.config.index = i
    · rw [if_pos hi] at hother
      cases hother
      exact hi
    · rw [if_neg hi] at hother
      exact h.index i other hother
  · rw [TreeMaps.getElem?_insert, TreeMaps.getElem?_insert]
    by_cases hi : reserve.config.index = i
    · by_cases ha : reserve.asset = asset
      · simp [hi, ha]
      · subst hi
        simp [ha, h.inverse, hnone]
    · by_cases ha : reserve.asset = asset
      · subst ha
        simp only [hi, if_true, if_false, Option.some.injEq, false_iff]
        rintro ⟨other, hother, hsame⟩
        exact hasset i other hother hsame
      · simp [hi, ha, h.inverse]

/-- A reserve list that decodes has each asset once, under an index of its own. -/
theorem decodeReserves_keyed {entries : LedgerEntries} {assets : List String} {r : Reserves}
    (h : assets.foldlM (decodeReserve pool entries) {} = .ok r) : Keyed r.reserves r.assetIndex := by
  let I (_ : List String) (r : Reserves) : Prop := Keyed r.reserves r.assetIndex ∧
    ∀ (i : Nat) (reserve : Reserve), r.reserves[i]? = some reserve → ConfigOf pool entries reserve.asset reserve.config
  refine (Results.foldlM_inv I (fun asset rest r r' hr hstep => ?_) ⟨⟨?_, ?_⟩, ?_⟩ h).1
  · obtain ⟨hkeyed, hconfigs⟩ := hr
    obtain ⟨reserve, rfl, hconfig, hindex, hreserves, hassets⟩ := decodeReserve_ok hstep
    show Keyed r'.reserves r'.assetIndex ∧ _
    rw [hreserves, hassets]
    -- An asset listed twice would decode to the index it already has.
    refine ⟨hkeyed.insert hindex fun i other hother hsame => hindex ?_, fun i other hother => ?_⟩
    · have hi := hkeyed.index i other hother
      rw [hconfig.unique (hsame ▸ hconfigs i other hother), hi]
      exact TreeMaps.mem_of_getElem? hother
    · rw [TreeMaps.getElem?_insert] at hother
      by_cases hi : reserve.config.index = i
      · rw [if_pos hi] at hother
        cases hother
        exact hconfig
      · rw [if_neg hi] at hother
        exact hconfigs i other hother
  · simp
  · simp
  · simp

/-- What the entry answered for a user's positions makes of them. -/
def Holds (entry : Option (Except XdrError LedgerEntryData)) (positions : Positions) : Prop :=
  match entry with
  | some (.ok data) => data.positions = .ok positions
  | some (.error _) => False
  | none => positions = {}

theorem decodePositions_ok {entries : LedgerEntries} {positions positions' : BTreeMap String Positions} {user : String}
    (h : decodePositions pool entries positions user = .ok positions') :
    ∃ own, Holds ((entries.get (.positions pool user)).map .ok) own ∧ positions' = positions.insert user own := by
  unfold decodePositions at h
  split at h
  · next entry hentry =>
    rw [Results.bind_ok_iff] at h
    obtain ⟨own, hown, h⟩ := h
    rw [Results.mapError_ok_iff] at hown
    rw [Results.pure_ok_iff] at h
    exact ⟨own, by rw [hentry]; exact hown, h.symm⟩
  · next hnone =>
    rw [Results.pure_ok_iff] at h
    exact ⟨{}, by rw [hnone]; exact rfl, h.symm⟩

/-- The positions are the users', each its own entry's. -/
theorem decodePositions_own {entries : LedgerEntries} {positions : BTreeMap String Positions}
    (h : users.foldlM (decodePositions pool entries) ∅ = .ok positions) (user : String) :
    (user ∈ positions ↔ user ∈ users) ∧ ∀ own, positions[user]? = some own →
      Holds ((entries.get (.positions pool user)).map .ok) own := by
  let I (rest : List String) (positions : BTreeMap String Positions) : Prop :=
    (user ∈ positions ∨ user ∈ rest ↔ user ∈ users) ∧ ∀ own, positions[user]? = some own →
      Holds ((entries.get (.positions pool user)).map .ok) own
  have hfinal : I [] positions := by
    refine Results.foldlM_inv I (fun next rest positions positions' hp hstep => ?_) ⟨by simp, by simp⟩ h
    obtain ⟨own, hown, rfl⟩ := decodePositions_ok hstep
    refine ⟨?_, fun other hother => ?_⟩
    · rw [← hp.1, TreeMaps.mem_insert, List.mem_cons]
      constructor
      · rintro ((hsame | hmem) | hmem)
        · exact .inr (.inl hsame.symm)
        · exact .inl hmem
        · exact .inr (.inr hmem)
      · rintro (hmem | hsame | hmem)
        · exact .inl (.inr hmem)
        · exact .inl (.inl hsame.symm)
        · exact .inr hmem
    · rw [TreeMaps.getElem?_insert] at hother
      by_cases hsame : next = user
      · rw [if_pos hsame] at hother
        cases hother
        exact hsame ▸ hown
      · rw [if_neg hsame] at hother
        exact hp.2 other hother
  exact ⟨by simpa using hfinal.1, hfinal.2⟩

/-! ## A snapshot -/

/-- The calls of an attempt that made `s`, in three parts, and what `s` holds of
their answers. -/
structure Made (pool : String) (users : List String) (s : FullSnapshot) (reads : List Read) : Prop where
  parts : ∃ shape batches views assets, reads = [shape] ++ batches ++ views ∧
    Shaped pool shape s.ledger s.poolInstance assets ∧
    batches.map Read.asked = ((wanted pool assets users).toChunks ENTRY_BATCH).map .entries ∧
    views.map Read.asked =
      .view (.decimals s.poolInstance.config.oracle) ::
        assets.map (fun asset => .view (.lastprice s.poolInstance.config.oracle asset)) ∧
    ∀ user own, s.positions[user]? = some own → Holds (returned batches (.positions pool user)) own
  ledger : ReadAt s.ledger reads
  reserves : Keyed s.reserves s.assetIndex
  users : ∀ user, user ∈ s.positions ↔ user ∈ users

theorem snapshotOnce_gives : Gives env (· = []) (snapshotOnce pool users) (Made pool users) := by
  unfold snapshotOnce
  refine Gives.bind shape_gives fun (ledger, poolInstance, assets) => ?_
  intro t s hs
  obtain ⟨shape, rfl, hshape⟩ := hs
  refine Gives.bind ledgerEntries_gives (fun entries => Gives.bind_lift fun _ hsame => ?_) t [shape] rfl
  refine Gives.bind_lift fun r hr => Gives.bind_lift fun positions hpositions => ?_
  intro t s hs
  obtain ⟨batches, rfl, hbatches⟩ := hs
  refine Gives.bind prices_gives (fun priced => Gives.pure fun after hafter => ?_) t ([shape] ++ batches) rfl
  obtain ⟨views, rfl, hviews, hread⟩ := hafter
  have hown := decodePositions_own hpositions
  have hledger : ReadAt ledger batches := sameLedger_ok hsame ▸ hbatches.ledger
  refine ⟨⟨shape, batches, views, assets, rfl, hshape, hbatches.asked, ?_, fun user own hpos => ?_⟩, ?_,
    decodeReserves_keyed hr, fun user => (hown user).1⟩
  · simpa [Function.comp_def] using hviews
  · have huser : user ∈ users := (hown user).1.1 (TreeMaps.mem_of_getElem? hpos)
    rw [hbatches.found _ (by simp [wanted, huser])]
    exact (hown user).2 own hpos
  · exact readAt_append (readAt_append (readAt_singleton hshape.ledger) hledger) hread

/-- Attempts that each found the ledger moved, from one moment to another. -/
inductive Retried (env : Nat → ReaderMoment) (pool : String) (users : List String) :
    List (List Read) → Nat → Nat → Prop
  | none (t : Nat) : Retried env pool users [] t t
  | moved {t next last first second : Nat} {reads : List Read} {later : List (List Read)}
      (attempt : snapshotOnce pool users env t [] = (.err (.ledgerMoved first second), next, reads))
      (rest : Retried env pool users later next last) : Retried env pool users (reads :: later) t last

theorem attempt_eq {t next : Nat} {r : Res ChainError FullSnapshot} (before : List (List Read))
    (h : snapshotOnce pool users env t [] = (r, next, reads)) :
    attempt pool users env t before = (r, next, before ++ [reads]) := by
  unfold attempt Prog.within
  simp only [id, h]

/-- A run of `retrying`: moved attempts, and the one whose answer it gives. -/
theorem retrying_eq (env : Nat → ReaderMoment) (pool : String) (users : List String) (retries t : Nat)
    (before : List (List Read)) :
    ∃ moved start r last reads, Retried env pool users moved t start ∧ moved.length ≤ retries ∧
      snapshotOnce pool users env start [] = (r, last, reads) ∧
      retrying pool users retries env t before = (r, last, before ++ moved ++ [reads]) := by
  obtain ⟨r, next, reads, hrun⟩ : ∃ r next reads, snapshotOnce pool users env t [] = (r, next, reads) :=
    ⟨_, _, _, rfl⟩
  induction retries generalizing t before r next reads with
  | zero =>
    have hlast := attempt_eq before hrun
    rw [← List.append_nil before] at hlast
    exact ⟨[], t, r, next, reads, .none t, le_rfl, hrun, by simpa [retrying] using hlast⟩
  | succ retries ih =>
    by_cases hmoved : ∃ first second, r = .err (.ledgerMoved first second)
    · obtain ⟨first, second, rfl⟩ := hmoved
      obtain ⟨moved, start, r', last, reads', hretried, hlength, hlast, heq⟩ :=
        ih next (before ++ [reads]) _ _ _ rfl
      have hretry : retrying pool users (retries + 1) env t before =
          retrying pool users retries env next (before ++ [reads]) := by
        show Prog.bind (Prog.caught (attempt pool users)) _ env t before = _
        unfold Prog.bind Prog.caught
        rw [attempt_eq before hrun]
      refine ⟨reads :: moved, start, r', last, reads', .moved hrun hretried, by simpa using hlength, hlast, ?_⟩
      rw [hretry]
      simpa using heq
    · have hgiven : retrying pool users (retries + 1) env t before = (r, next, before ++ [reads]) := by
        show Prog.bind (Prog.caught (attempt pool users)) _ env t before = _
        unfold Prog.bind Prog.caught
        rw [attempt_eq before hrun]
        cases r with
        | ok a => rfl
        | running => rfl
        | err e =>
          cases e with
          | ledgerMoved first second => exact absurd ⟨first, second, rfl⟩ hmoved
          | _ => rfl
      refine ⟨[], t, r, next, reads, .none t, Nat.zero_le _, hrun, ?_⟩
      rw [hgiven]
      simp

/-- However the RPC answers, a snapshot is asked for a bounded number of times,
again only where the ledger moved, and the one that is given is one ledger's. -/
theorem snapshot_one_ledger (env : Nat → ReaderMoment) (pool : String) (users : List String) (t : Nat) :
    ∃ moved start r last reads, Retried env pool users moved t start ∧ moved.length < SNAPSHOT_ATTEMPTS ∧
      snapshotOnce pool users env start [] = (r, last, reads) ∧
      snapshot pool users env t [] = (r, last, moved ++ [reads]) ∧
      ∀ s, r = .ok s → Made pool users s reads := by
  obtain ⟨moved, start, r, last, reads, hmoved, hlength, hlast, heq⟩ :=
    retrying_eq env pool users (SNAPSHOT_ATTEMPTS - 1) t []
  refine ⟨moved, start, r, last, reads, hmoved, Nat.lt_of_le_pred (by decide) hlength, hlast, heq, fun s hs => ?_⟩
  have hmade := snapshotOnce_gives start [] rfl s (by rw [hlast]; exact hs)
  rw [hlast] at hmade
  exact hmade

/-- A reserve's configuration, for a pool of one. -/
def sampleReserveConfig : ReserveConfig where
  index := 0
  decimals := 7
  cFactor := 9000000
  lFactor := 9000000
  util := 7000000
  maxUtil := 9500000
  rBase := 100000
  rOne := 500000
  rTwo := 5000000
  rThree := 15000000
  reactivity := 100
  supplyCap := 10 ^ 15
  enabled := true

/-- An RPC whose ledger closes after the first call. -/
def closingLedger (t : Nat) : ReaderMoment where
  getLedgerEntries _ := .ok {
    latestLedger := if t = 0 then 10 else 11
    entries := [
      (.poolInstance "pool", .ok { poolInstance := .ok ⟨"admin", "backstop", "token", "Pool", "oracle", 0, .active, 4, 0⟩ }),
      (.reserveList "pool", .ok { reserveList := .ok ["asset"] }),
      (.reserveConfig "pool" "asset", .ok { reserveConfig := .ok sampleReserveConfig }),
      (.reserveData "pool" "asset", .ok { reserveData := .ok ⟨SCALAR_12, SCALAR_12, SCALAR_7, 0, 0, 0, 0⟩ })] }
  simulateView _ := .ok {
    latestLedger := 11
    outcome := .ok { decimals := .ok 7, priceData := .ok (some ⟨10 ^ 7, 100⟩) } }

theorem snapshot_one_ledger_moved_once : ∃ moved s reads,
    snapshot "pool" ["user"] closingLedger 0 [] = (.ok s, 6, [moved, reads]) ∧ s.ledger = 11 ∧
      s.positions["user"]? = some {} ∧ Made "pool" ["user"] s reads := by
  obtain ⟨moved, start, r, last, reads, -, -, -, heq, hmade⟩ := snapshot_one_ledger closingLedger "pool" ["user"] 0
  obtain ⟨first, s, second, hrun, hledger, hpositions⟩ : ∃ first s second,
      snapshot "pool" ["user"] closingLedger 0 [] = (.ok s, 6, [first, second]) ∧ s.ledger = 11 ∧
        s.positions["user"]? = some {} := ⟨_, _, _, rfl, rfl, rfl⟩
  rw [hrun, Prod.mk.injEq, Prod.mk.injEq] at heq
  obtain ⟨hr, -, hattempts⟩ := heq
  have hlast : [first] ++ [second] = moved ++ [reads] := hattempts
  obtain ⟨-, hreads⟩ := List.append_inj' hlast rfl
  refine ⟨first, s, second, hrun, hledger, hpositions, ?_⟩
  rw [List.singleton_inj.1 hreads]
  exact hmade s hr.symm

/-- The last attempt on the record is the snapshot's, and each of its calls was
answered at the snapshot's ledger. -/
def MadeAt (snapshot : FullSnapshot) (attempts : List (List Read)) : Prop :=
  ∃ earlier reads, attempts = earlier ++ [reads] ∧ ReadAt snapshot.ledger reads

/-- A snapshot is one ledger's. -/
theorem snapshot_madeAt : Gives env (fun _ => True) (snapshot pool users) MadeAt := by
  intro t before _ s hs
  obtain ⟨moved, start, r, last, reads, -, -, hlast, heq⟩ :=
    retrying_eq env pool users (SNAPSHOT_ATTEMPTS - 1) t before
  have hrun : snapshot pool users env t before = (r, last, before ++ moved ++ [reads]) := heq
  rw [hrun] at hs ⊢
  have hmade := snapshotOnce_gives start [] rfl s (by rw [hlast]; exact hs)
  rw [hlast] at hmade
  exact ⟨before ++ moved, reads, rfl, hmade.ledger⟩

/-! ## A read comes to an end -/

section Ends

theorem fetch_stays {α : Type} {method : ReaderMoment → Except RpcError α} {read : Except RpcError α → Read} :
    Stays env (fun _ => True) (fetch method read) := by
  unfold fetch
  refine Stays.ask.bind fun answer => Stays.bind ?_ fun _ => Stays.lift
  exact Stays.modify fun _ h => h

theorem ledgerEntries_stays {keys : List LedgerKey} : Stays env (fun _ => True) (ledgerEntries keys) := by
  unfold ledgerEntries
  by_cases hkeys : keys.isEmpty = true
  · rw [if_pos hkeys]
    exact Stays.fail
  · rw [if_neg hkeys]
    refine Stays.bind (Stays.foldlM fun batch _ read => ?_) fun _ => Stays.pure
    unfold readBatch
    exact fetch_stays.bind fun raw => Stays.lift.bind fun _ => Stays.lift.bind fun _ => Stays.pure

theorem view_stays {call : ViewCall} : Stays env (fun _ => True) (view call) := by
  unfold view
  refine fetch_stays.bind fun simulation => ?_
  split
  · exact Stays.pure
  · exact Stays.fail

theorem auction_stays {user : String} {auctionType : AuctionType} :
    Stays env (fun _ => True) (auction pool user auctionType) := by
  unfold auction
  refine ledgerEntries_stays.bind fun entries => ?_
  split
  · exact Stays.lift.bind fun _ => Stays.pure
  · exact Stays.pure

theorem balance_stays {token account : String} : Stays env (fun _ => True) (balance token account) := by
  unfold balance
  exact view_stays.bind fun answer => Stays.lift.bind fun _ => Stays.pure

theorem prices_stays {oracle : String} {assets : List String} {ledger : Nat} :
    Stays env (fun _ => True) (prices oracle assets ledger) := by
  unfold prices
  refine view_stays.bind fun answer => Stays.lift.bind fun _ => Stays.lift.bind fun decimals => ?_
  refine Stays.bind (Stays.foldlM fun asset _ priced => ?_) fun priced => Stays.lift.bind fun _ => Stays.pure
  unfold lastprice
  refine view_stays.bind fun answer => Stays.lift.bind fun _ => Stays.lift.bind fun price => ?_
  split <;> exact Stays.pure

theorem snapshotOnce_stays : Stays env (fun _ => True) (snapshotOnce pool users) := by
  unfold snapshotOnce shape
  refine Stays.bind ?_ fun shape => ?_
  · refine ledgerEntries_stays.bind fun entries => Stays.lift.bind fun _ => Stays.lift.bind fun _ => ?_
    exact Stays.lift.bind fun _ => Stays.lift.bind fun _ => Stays.pure
  · refine ledgerEntries_stays.bind fun entries => Stays.lift.bind fun _ => Stays.lift.bind fun r => ?_
    exact Stays.lift.bind fun _ => prices_stays.bind fun _ => Stays.pure

theorem attempt_stays : Stays env (fun _ => True) (attempt pool users) := by
  unfold attempt
  refine Triple.within (R := fun _ r _ => r ≠ .running) (fun s _ => ?_) fun _ r _ _ hr => ⟨hr, trivial⟩
  exact Triple.conseq snapshotOnce_stays (fun _ _ => trivial) fun _ _ h => h.1

theorem snapshot_stays : Stays env (fun _ => True) (snapshot pool users) := by
  unfold snapshot
  generalize SNAPSHOT_ATTEMPTS - 1 = retries
  induction retries with
  | zero => exact attempt_stays
  | succ retries ih =>
    unfold retrying
    refine (Stays.caught attempt_stays).bind fun answer => ?_
    split
    · exact ih
    · exact Stays.lift

end Ends

end PoolReader

end BlendLiquidator
