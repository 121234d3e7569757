/-
A snapshot of a ledger that stands still. Where every answer is one ledger's, with
what that ledger stores under the keys asked for, in whatever order and among
whatever else, a snapshot is given exactly where what it needs is there in the
contract's own format, and it is then what the ledger stores.
-/
import BlendLiquidator.DecodeFacts
import BlendLiquidator.PoolReaderFacts

namespace BlendLiquidator

open Oracle Results TreeMaps

/-! ## The ledger -/

/-- What a ledger stores, and what view calls return at it. -/
structure PoolLedger where
  ledger : Nat
  entry : LedgerKey → Option StoredEntry
  returned : ViewCall → Except (String × Option Nat) ScVal

namespace PoolLedger

variable (l : PoolLedger)

/-- Entries that the ledger stores, those under the keys asked for among them. -/
structure Answered (keys : List LedgerKey) (raw : RawEntries) : Prop where
  ledger : raw.latestLedger = l.ledger
  stored : ∀ entry ∈ raw.entries, ∃ stored, l.entry entry.1 = some stored ∧ entry.2 = .ok (Decode.entryData stored)
  all : ∀ key ∈ keys, ∀ stored, l.entry key = some stored → key ∈ raw.entries.map Prod.fst

/-- An RPC that answers at the ledger with what the ledger holds. -/
structure AnsweredBy (moment : ReaderMoment) : Prop where
  entries : ∀ keys, ∃ raw, moment.getLedgerEntries keys = .ok raw ∧ l.Answered keys raw
  view : ∀ call, moment.simulateView call =
    .ok { latestLedger := l.ledger, outcome := (l.returned call).map Decode.viewValue }

/-- The ledger stands still: it is the same at every moment. -/
def Standing (env : Nat → ReaderMoment) : Prop := ∀ t, l.AnsweredBy (env t)

/-- An RPC that answers in the order of the keys, and nothing that was not asked for. -/
def plainly : ReaderMoment where
  getLedgerEntries keys := .ok
    { latestLedger := l.ledger
      entries := keys.filterMap fun key => (l.entry key).map fun stored => (key, .ok (Decode.entryData stored)) }
  simulateView call := .ok { latestLedger := l.ledger, outcome := (l.returned call).map Decode.viewValue }

theorem answeredBy_plainly : l.AnsweredBy l.plainly := by
  refine ⟨fun keys => ⟨_, rfl, rfl, fun entry hentry => ?_, fun key hkey stored hstored => ?_⟩, fun _ => rfl⟩
  · obtain ⟨key, -, hkey⟩ := List.mem_filterMap.1 hentry
    obtain ⟨stored, hstored, rfl⟩ := Option.map_eq_some_iff.1 hkey
    exact ⟨stored, hstored, rfl⟩
  · refine List.mem_map.2 ⟨(key, .ok (Decode.entryData stored)), List.mem_filterMap.2 ⟨key, hkey, ?_⟩, rfl⟩
    rw [hstored, Option.map_some]

def Has (key : LedgerKey) (value : ScVal) : Prop := ∃ entry, l.entry key = some entry ∧ Stores entry value

/-- A reserve, as the ledger stores it. -/
structure HasReserve (pool : String) (reserve : Reserve) : Prop where
  config : ∃ value, l.Has (.reserveConfig pool reserve.asset) value ∧ CarriesReserveConfig value reserve.config
  data : ∃ value, l.Has (.reserveData pool reserve.asset) value ∧ CarriesReserveData value reserve.data
  decimals : reserve.config.decimals ≤ 38

/-- A user's positions, empty where the ledger stores none. -/
def HasPositions (pool user : String) (positions : Positions) : Prop :=
  (l.entry (.positions pool user) = none ∧ positions = {}) ∨
    ∃ value, l.Has (.positions pool user) value ∧ CarriesPositions value positions

/-- What the oracle returns for an asset, which may be no price. -/
def HasPrice (oracle asset : String) (price : Option PriceData) : Prop :=
  ∃ value, l.returned (.lastprice oracle asset) = .ok value ∧ CarriesPrice value price

/-- The list's reserves, each under an index of its own, and the index of each
asset. -/
def AreReserves (pool : String) (assets : List String) (reserves : BTreeMap Nat Reserve)
    (assetIndex : BTreeMap String Nat) : Prop :=
  ∃ listed : List Reserve, listed.map (·.asset) = assets ∧ (∀ reserve ∈ listed, l.HasReserve pool reserve) ∧
    (listed.map (·.config.index)).Nodup ∧
    (∀ i reserve, reserves[i]? = some reserve ↔ reserve ∈ listed ∧ reserve.config.index = i) ∧
    ∀ asset i, assetIndex[asset]? = some i ↔ ∃ reserve ∈ listed, reserve.asset = asset ∧ reserve.config.index = i

/-- The prices of the list's assets that have one, and when they were published. -/
structure ArePrices (oracle : String) (assets : List String) (prices : OraclePrices) (timestamps : BTreeMap String Nat) :
    Prop where
  decimals : ∃ number : UInt32, l.returned (.decimals oracle) = .ok (.u32 number) ∧ prices.decimals = number.toNat
  scale : prices.decimals ≤ 38
  listed : ∀ asset ∈ assets, ∃ price, l.HasPrice oracle asset price ∧
    prices.prices[asset]? = price.map (·.price) ∧ timestamps[asset]? = price.map (·.timestamp)
  other : ∀ asset, asset ∉ assets → prices.prices[asset]? = none ∧ timestamps[asset]? = none

/-- The users' positions, and no other's. -/
structure ArePositions (pool : String) (users : List String) (positions : BTreeMap String Positions) : Prop where
  asked : ∀ user ∈ users, ∃ own, l.HasPositions pool user own ∧ positions[user]? = some own
  other : ∀ user, user ∉ users → positions[user]? = none

/-- A snapshot, as the ledger has it. A pool of no reserves has none where no
user is asked for: there is then no entry to read. -/
def IsSnapshot (pool : String) (users : List String) (s : FullSnapshot) : Prop :=
  ∃ assets, s.ledger = l.ledger ∧ s.pool = pool ∧ s.bstopRate = s.poolInstance.config.bstopRate ∧
    (assets ≠ [] ∨ users ≠ []) ∧
    (∃ entry, l.entry (.poolInstance pool) = some entry ∧ CarriesInstance entry s.poolInstance) ∧
    (∃ value, l.Has (.reserveList pool) value ∧ CarriesReserveList value assets) ∧
    l.AreReserves pool assets s.reserves s.assetIndex ∧
    l.ArePrices s.poolInstance.config.oracle assets s.prices s.priceTimestamps ∧ l.ArePositions pool users s.positions

end PoolLedger

namespace PoolReader

variable {l : PoolLedger} {env : Nat → ReaderMoment} {pool : String} {users : List String}

/-! ## Reads -/

theorem fetch_obtains {α : Type} {method : ReaderMoment → Except RpcError α} {read : Except RpcError α → Read}
    {Q : α → Prop} (h : ∀ t, ∃ a, method (env t) = .ok a ∧ Q a) : Obtains env (fetch method read) Q := by
  unfold fetch
  refine Triple.bind_ask fun t => Ends.bind_modify (I := fun _ => True) (fun _ _ => trivial) ?_
  obtain ⟨a, ha, hq⟩ := h t
  rw [ha]
  exact Ends.pure fun _ _ => hq

/-- What is read of the batches so far: the ledger's entries, of their keys every one. -/
structure Gathered (l : PoolLedger) (done : List (List LedgerKey)) (read : Batched) : Prop where
  ledger : read.latestLedger = if done = [] then none else some l.ledger
  stored : ∀ entry ∈ read.entries, ∃ stored, l.entry entry.1 = some stored ∧ entry.2 = Decode.entryData stored
  all : ∀ batch ∈ done, ∀ key ∈ batch, ∀ stored, l.entry key = some stored → key ∈ read.entries.map Prod.fst

/-- The ledger's entries decode, each under its key. -/
theorem mapM_stored {entries : List (LedgerKey × Except XdrError LedgerEntryData)}
    (h : ∀ entry ∈ entries, ∃ stored, l.entry entry.1 = some stored ∧ entry.2 = .ok (Decode.entryData stored)) :
    ∃ decoded, (entries.mapM fun entry => do pure (entry.1, ← entry.2.mapError ChainError.xdr) :
        Except ChainError (List (LedgerKey × LedgerEntryData))) = .ok decoded ∧
      decoded.map Prod.fst = entries.map Prod.fst ∧
      ∀ entry ∈ decoded, ∃ stored, l.entry entry.1 = some stored ∧ entry.2 = Decode.entryData stored := by
  induction entries with
  | nil => exact ⟨[], rfl, rfl, by simp⟩
  | cons entry entries ih =>
    obtain ⟨⟨stored, hkey, hdata⟩, hrest⟩ := List.forall_mem_cons.1 h
    obtain ⟨decoded, hdecoded, hkeys, hstored⟩ := ih hrest
    refine ⟨(entry.1, Decode.entryData stored) :: decoded, ?_, by simp [hkeys], ?_⟩
    · rw [List.mapM_cons, hdecoded, hdata]
      rfl
    · exact List.forall_mem_cons.2 ⟨⟨stored, hkey, rfl⟩, hstored⟩

theorem readBatch_obtains (h : l.Standing env) {keys batch : List LedgerKey} (hbatch : ∀ key ∈ batch, key ∈ keys)
    {done : List (List LedgerKey)} {read : Batched} (hread : Gathered l done read) :
    Obtains env (readBatch keys read batch) (Gathered l (done ++ [batch])) := by
  unfold readBatch
  refine Ends.bind (fetch_obtains fun t => (h t).entries batch) fun raw => ?_
  intro t s hraw
  have hledger : read.ledgerWith raw = .ok l.ledger := by
    unfold Batched.ledgerWith
    rw [hread.ledger]
    by_cases hdone : done = []
    · simp [hdone, hraw.ledger]
    · simp [hdone, hraw.ledger]
  obtain ⟨decoded, hdecoded, hkeys, hstored⟩ := mapM_stored fun entry hentry =>
    hraw.stored entry (List.mem_of_mem_filter hentry)
  rw [hledger, requested, hdecoded]
  refine ⟨by simp, ?_, ?_⟩
  · intro entry hentry
    rcases List.mem_append.1 hentry with hentry | hentry
    · exact hread.stored entry hentry
    · exact hstored entry hentry
  · intro other hother key hkey stored hentry
    rw [List.map_append, List.mem_append]
    rcases List.mem_append.1 hother with hother | hother
    · exact .inl (hread.all other hother key hkey stored hentry)
    · rw [List.mem_singleton.1 hother] at hkey
      refine .inr ?_
      rw [hkeys]
      obtain ⟨entry, hmem, rfl⟩ := List.mem_map.1 (hraw.all key hkey stored hentry)
      exact List.mem_map_of_mem (List.mem_filter.2 ⟨hmem, by simpa using hbatch _ hkey⟩)

/-- Chunks are the list they were made of. -/
theorem flatten_toChunks {α : Type} (n : Nat) (xs : List α) : (xs.toChunks n).flatten = xs := by
  have hgo : ∀ {n : Nat} {xs : List α} {chunk : Array α} {chunks : Array (List α)},
      (List.toChunks.go n xs chunk chunks).flatten = chunks.toList.flatten ++ chunk.toList ++ xs := by
    intro n xs
    induction xs with
    | nil => simp [List.toChunks.go]
    | cons x xs ih =>
      intro chunk chunks
      rw [List.toChunks.go]
      split
      · rw [ih]
        simp
      · rw [ih]
        simp
  match n, xs with
  | _, [] => simp [List.toChunks]
  | 0, x :: xs => simp [List.toChunks]
  | n + 1, x :: xs =>
    rw [List.toChunks, hgo]
    · simp
    · simp

/-- What is read of the ledger under the keys. -/
structure ReadOf (l : PoolLedger) (keys : List LedgerKey) (entries : LedgerEntries) : Prop where
  ledger : entries.latestLedger = l.ledger
  get : ∀ key ∈ keys, entries.get key = (l.entry key).map Decode.entryData

theorem ledgerEntries_obtains (h : l.Standing env) {keys : List LedgerKey} (hkeys : keys ≠ []) :
    Obtains env (ledgerEntries keys) (ReadOf l keys) := by
  unfold ledgerEntries
  rw [if_neg (by simpa using hkeys)]
  have hchunks : (keys.toChunks ENTRY_BATCH).flatten = keys := flatten_toChunks ENTRY_BATCH keys
  let I (rest : List (List LedgerKey)) (read : Batched) (_ : List Read) : Prop :=
    ∃ done, keys.toChunks ENTRY_BATCH = done ++ rest ∧ Gathered l done read
  refine Ends.bind (Q := I []) (Ends.pre (Ends.foldlM (I := I) fun batch rest read => ?_) fun _ _ => ?_) fun read =>
    Ends.pure fun _ hread => ?_
  · intro t s hs
    obtain ⟨done, hdone, hread⟩ := hs
    have hbatch : ∀ key ∈ batch, key ∈ keys := by
      intro key hkey
      rw [← hchunks, hdone]
      simp [hkey]
    refine Ends.conseq (readBatch_obtains h hbatch hread) (fun _ h => h) (fun read _ hread => ?_) t s trivial
    exact ⟨done ++ [batch], by simp [hdone], hread⟩
  · exact ⟨[], rfl, rfl, by simp, by simp⟩
  · obtain ⟨done, hdone, hread⟩ := hread
    rw [List.append_nil] at hdone
    rw [hdone] at hchunks
    constructor
    · have hsome : done ≠ [] := by
        rintro rfl
        exact hkeys hchunks.symm
      rw [hread.ledger, if_neg hsome]
      rfl
    · intro key hkey
      rw [← hchunks] at hkey
      obtain ⟨batch, hbatch, hkey⟩ := List.mem_flatten.1 hkey
      unfold LedgerEntries.get
      cases hfind : read.entries.reverse.find? fun entry => entry.1 = key with
      | some entry =>
        obtain ⟨stored, hentry, hdata⟩ := hread.stored entry (by simpa using List.mem_of_find?_eq_some hfind)
        have hsame : entry.1 = key := by simpa using List.find?_some hfind
        rw [← hsame, hentry, Option.map_some, hdata, Option.map_some]
      | none =>
        cases hentry : l.entry key with
        | none => rfl
        | some stored =>
          obtain ⟨entry, hmem, hsame⟩ := List.mem_map.1 (hread.all batch hbatch key hkey stored hentry)
          simpa [hsame] using List.find?_eq_none.1 hfind entry (by simpa using hmem)

/-- A view call answers what it returns at the ledger. -/
theorem view_yields (h : l.Standing env) {call : ViewCall} :
    Yields env (view call) fun answer =>
      ∃ value, l.returned call = .ok value ∧ answer = (l.ledger, Decode.viewValue value) := by
  unfold view
  have hfetch : Obtains env (fetch (·.simulateView call) (.view call)) fun simulation =>
      simulation = { latestLedger := l.ledger, outcome := (l.returned call).map Decode.viewValue } :=
    fetch_obtains fun t => ⟨_, (h t).view call, rfl⟩
  refine Yields.bind_reached hfetch fun simulation hsimulation => ?_
  rw [hsimulation]
  cases l.returned call with
  | ok value =>
    show Yields env (Pure.pure (l.ledger, Decode.viewValue value)) _
    exact Yields.pure.congr fun answer => by simp [eq_comm]
  | error failure => exact Yields.fail.congr fun answer => by simp

/-! ## Entries -/

theorem present_ok_iff {entry : Option LedgerEntryData} {missing : String} {data : LedgerEntryData} :
    present entry missing = .ok data ↔ entry = some data := by
  cases entry <;> simp [present]

/-- An entry that was read and decodes is one the ledger stores. -/
theorem ReadOf.decoded_iff {keys : List LedgerKey} {entries : LedgerEntries} (h : ReadOf l keys entries) {key : LedgerKey}
    (hkey : key ∈ keys) {α : Type} {decode : ScVal → Except XdrError α} {data : LedgerEntryData → Except XdrError α}
    (hdata : ∀ stored, data (Decode.entryData stored) = Decode.entryValue decode stored) {a : α} :
    (∃ entry, entries.get key = some entry ∧ data entry = .ok a) ↔ ∃ value, l.Has key value ∧ decode value = .ok a := by
  rw [h.get key hkey]
  unfold PoolLedger.Has
  cases l.entry key with
  | none => simp
  | some stored => simp [hdata, Decode.entryValue_ok_iff]

theorem shape_yields (h : l.Standing env) : Yields env (shape pool) fun answer => answer.1 = l.ledger ∧
    (∃ entry, l.entry (.poolInstance pool) = some entry ∧ CarriesInstance entry answer.2.1) ∧
    ∃ value, l.Has (.reserveList pool) value ∧ CarriesReserveList value answer.2.2 := by
  unfold shape
  refine Yields.bind_reached (ledgerEntries_obtains h (by simp)) fun entries hentries => ?_
  refine (Yields.bind_lift fun first _ => Yields.bind_lift fun poolInstance _ => Yields.bind_lift fun second _ =>
    Yields.bind_lift fun assets _ => Yields.pure).congr fun answer => ?_
  obtain ⟨ledger, found, listed⟩ := answer
  have hlist : (∃ entry, entries.get (.reserveList pool) = some entry ∧ entry.reserveList = .ok listed) ↔
      ∃ value, l.Has (.reserveList pool) value ∧ Decode.reserveListValue value = .ok listed :=
    hentries.decoded_iff (by simp) fun _ => rfl
  simp only [← Decode.reserveListValue_ok_iff, ← hlist]
  simp only [present_ok_iff, mapError_ok_iff, Prod.mk.injEq, hentries.ledger, hentries.get (.poolInstance pool) (by simp)]
  constructor
  · rintro ⟨first, hfirst, poolInstance, hinstance, second, hsecond, assets, hassets, hledger, hinst, hlisted⟩
    obtain ⟨stored, hstored, rfl⟩ := Option.map_eq_some_iff.1 hfirst
    refine ⟨hledger.symm, ⟨stored, hstored, Decode.poolInstance_ok_iff.1 (hinst ▸ hinstance)⟩, second, hsecond, ?_⟩
    exact hlisted ▸ hassets
  · rintro ⟨rfl, ⟨stored, hstored, hinstance⟩, second, hsecond, hassets⟩
    exact ⟨_, by rw [hstored, Option.map_some], _, Decode.poolInstance_ok_iff.2 hinstance, second, hsecond, _, hassets, rfl,
      rfl, rfl⟩

/-! ## Reserves and positions -/

theorem pow10_ok_iff {decimals : Nat} : (∃ scalar, pow10 decimals = .ok scalar) ↔ decimals ≤ 38 := by
  simp only [pow10, narrow_ok_iff, exists_eq_left']
  constructor
  · rintro ⟨-, hle⟩
    by_contra hlt
    have hpow : (10 : Int) ^ 39 ≤ 10 ^ decimals := pow_le_pow_right₀ (by decide) (by omega)
    exact absurd (hpow.trans hle) (by decide)
  · intro hle
    have hpow : (10 : Int) ^ decimals ≤ 10 ^ 38 := pow_le_pow_right₀ (by decide) hle
    exact ⟨(by decide : i128Min ≤ 0).trans (pow_nonneg (by decide) _), hpow.trans (by decide)⟩

theorem reserve_new_ok_iff {asset : String} {config : ReserveConfig} {data : ReserveData} {reserve : Reserve} :
    Reserve.new asset config data = .ok reserve ↔
      reserve.asset = asset ∧ reserve.config = config ∧ reserve.data = data ∧ config.decimals ≤ 38 := by
  unfold Reserve.new
  simp only [bind_ok_iff, pure_ok_iff, exists_and_right, pow10_ok_iff]
  obtain ⟨asset', config', data', scalar, hscalar⟩ := reserve
  constructor
  · rintro ⟨hle, heq⟩
    cases heq
    exact ⟨rfl, rfl, rfl, hle⟩
  · rintro ⟨rfl, rfl, rfl, hle⟩
    exact ⟨hle, by simp only [hscalar]⟩

/-- What decoding a reserve adds. -/
def Reserves.add (r : Reserves) (reserve : Reserve) : Reserves where
  reserves := r.reserves.insert reserve.config.index reserve
  assetIndex := r.assetIndex.insert reserve.asset reserve.config.index

section Decoded

variable {keys : List LedgerKey} {entries : LedgerEntries} {asset : String} {assets : List String}

theorem decodeReserve_ok_iff (hread : ReadOf l keys entries) (hconfig : .reserveConfig pool asset ∈ keys)
    (hdata : .reserveData pool asset ∈ keys) {r r' : Reserves} :
    decodeReserve pool entries r asset = .ok r' ↔ ∃ reserve : Reserve, reserve.asset = asset ∧ l.HasReserve pool reserve ∧
      reserve.config.index ∉ r.reserves ∧ r' = r.add reserve := by
  have hconfigs : ∀ config,
      (∃ entry, entries.get (.reserveConfig pool asset) = some entry ∧ entry.reserveConfig = .ok config) ↔
      ∃ value, l.Has (.reserveConfig pool asset) value ∧ CarriesReserveConfig value config := by
    intro config
    rw [hread.decoded_iff hconfig fun _ => rfl]
    simp only [Decode.reserveConfigValue_ok_iff]
  have hdatas : ∀ data, (∃ entry, entries.get (.reserveData pool asset) = some entry ∧ entry.reserveData = .ok data) ↔
      ∃ value, l.Has (.reserveData pool asset) value ∧ CarriesReserveData value data := by
    intro data
    rw [hread.decoded_iff hdata fun _ => rfl]
    simp only [Decode.reserveDataValue_ok_iff]
  unfold decodeReserve
  simp only [bind_ok_iff, mapError_ok_iff, present_ok_iff]
  constructor
  · rintro ⟨entry, hentry, config, hc, entry', hentry', data, hd, reserve, hnew, h⟩
    obtain ⟨rfl, rfl, rfl, hle⟩ := reserve_new_ok_iff.1 hnew
    by_cases hindex : reserve.config.index ∈ r.reserves
    · simp [hindex, throw, throwThe, MonadExceptOf.throw, bind, Except.bind] at h
    · simp only [Std.ExtTreeMap.contains_iff_mem, hindex, if_false, pure_ok_iff] at h
      exact ⟨reserve, rfl, ⟨(hconfigs _).1 ⟨entry, hentry, hc⟩, (hdatas _).1 ⟨entry', hentry', hd⟩, hle⟩, hindex, h.symm⟩
  · rintro ⟨reserve, rfl, ⟨hc, hd, hle⟩, hindex, rfl⟩
    obtain ⟨entry, hentry, hc⟩ := (hconfigs _).2 hc
    obtain ⟨entry', hentry', hd⟩ := (hdatas _).2 hd
    refine ⟨entry, hentry, _, hc, entry', hentry', _, hd, reserve, reserve_new_ok_iff.2 ⟨rfl, rfl, rfl, hle⟩, ?_⟩
    simp only [Std.ExtTreeMap.contains_iff_mem, hindex, if_false, pure_ok_iff]
    rfl

/-- The list decodes to a reserve for each asset, under indices of their own. -/
theorem decodeReserves_ok_iff (hread : ReadOf l keys entries)
    (hkeys : ∀ asset ∈ assets, .reserveConfig pool asset ∈ keys ∧ .reserveData pool asset ∈ keys) {r r' : Reserves} :
    assets.foldlM (decodeReserve pool entries) r = .ok r' ↔ ∃ listed : List Reserve, listed.map (·.asset) = assets ∧
      (∀ reserve ∈ listed, l.HasReserve pool reserve) ∧ (listed.map (·.config.index)).Nodup ∧
      (∀ reserve ∈ listed, reserve.config.index ∉ r.reserves) ∧ r' = listed.foldl Reserves.add r := by
  induction assets generalizing r with
  | nil =>
    rw [List.foldlM_nil, pure_ok_iff]
    constructor
    · intro h
      exact ⟨[], rfl, by simp, by simp, by simp, h.symm⟩
    · rintro ⟨listed, hnil, -, -, -, rfl⟩
      rw [List.map_eq_nil_iff] at hnil
      rw [hnil, List.foldl_nil]
  | cons asset assets ih =>
    obtain ⟨⟨hconfig, hdata⟩, hrest⟩ := List.forall_mem_cons.1 hkeys
    rw [List.foldlM_cons, bind_ok_iff]
    constructor
    · rintro ⟨next, hnext, hlist⟩
      obtain ⟨reserve, rfl, hreserve, hindex, rfl⟩ := (decodeReserve_ok_iff hread hconfig hdata).1 hnext
      obtain ⟨listed, rfl, hlisted, hnodup, hfresh, rfl⟩ := (ih hrest).1 hlist
      have hapart : ∀ other ∈ listed, reserve.config.index ≠ other.config.index ∧ other.config.index ∉ r.reserves := by
        intro other hother
        have hnot := hfresh other hother
        rw [Reserves.add, mem_insert, not_or] at hnot
        exact hnot
      refine ⟨reserve :: listed, rfl, List.forall_mem_cons.2 ⟨hreserve, hlisted⟩, ?_,
        List.forall_mem_cons.2 ⟨hindex, fun other hother => (hapart other hother).2⟩, rfl⟩
      rw [List.map_cons, List.nodup_cons]
      refine ⟨fun hmem => ?_, hnodup⟩
      obtain ⟨other, hother, hsame⟩ := List.mem_map.1 hmem
      exact (hapart other hother).1 hsame.symm
    · rintro ⟨listed, hassets, hlisted, hnodup, hfresh, rfl⟩
      obtain ⟨reserve, listed, rfl, rfl, rfl⟩ := List.map_eq_cons_iff.1 hassets
      obtain ⟨hreserve, hlisted⟩ := List.forall_mem_cons.1 hlisted
      obtain ⟨hindex, hfresh⟩ := List.forall_mem_cons.1 hfresh
      rw [List.map_cons, List.nodup_cons] at hnodup
      refine ⟨r.add reserve, (decodeReserve_ok_iff hread hconfig hdata).2 ⟨reserve, rfl, hreserve, hindex, rfl⟩,
        (ih hrest).2 ⟨listed, rfl, hlisted, hnodup.2, fun other hother hmem => ?_, rfl⟩⟩
      rcases mem_insert.1 hmem with hsame | hmem
      · exact hnodup.1 (hsame ▸ List.mem_map_of_mem hother)
      · exact hfresh other hother hmem

theorem reserves_foldl_add {listed : List Reserve} {r : Reserves} :
    (listed.foldl Reserves.add r).reserves =
      listed.foldl (fun m reserve => m.insert reserve.config.index reserve) r.reserves ∧
    (listed.foldl Reserves.add r).assetIndex =
      listed.foldl (fun m reserve => m.insert reserve.asset reserve.config.index) r.assetIndex := by
  induction listed generalizing r with
  | nil => exact ⟨rfl, rfl⟩
  | cons reserve listed ih => exact ih

/-- Reserves of one asset are under one index. -/
theorem nodup_assets {listed : List Reserve} (h : ∀ reserve ∈ listed, l.HasReserve pool reserve)
    (hnodup : (listed.map (·.config.index)).Nodup) : (listed.map (·.asset)).Nodup := by
  rw [List.Nodup, List.pairwise_map] at hnodup ⊢
  refine hnodup.imp_of_mem fun {a b} ha hb hne hsame => hne ?_
  obtain ⟨value, ⟨entry, hentry, hstores⟩, hcarries⟩ := (h a ha).config
  obtain ⟨value', ⟨entry', hentry', hstores'⟩, hcarries'⟩ := (h b hb).config
  rw [hsame, hentry', Option.some.injEq] at hentry
  subst hentry
  obtain ⟨val, debug, rfl, rfl⟩ := hstores
  obtain ⟨val', debug', heq, rfl⟩ := hstores'
  cases heq
  have hconfig := (Decode.reserveConfigValue_ok_iff.2 hcarries).symm.trans (Decode.reserveConfigValue_ok_iff.2 hcarries')
  rw [Except.ok.inj hconfig]

theorem decodeReserves_yields (hread : ReadOf l keys entries)
    (hkeys : ∀ asset ∈ assets, .reserveConfig pool asset ∈ keys ∧ .reserveData pool asset ∈ keys) {r : Reserves} :
    assets.foldlM (decodeReserve pool entries) {} = .ok r ↔ l.AreReserves pool assets r.reserves r.assetIndex := by
  rw [decodeReserves_ok_iff hread hkeys]
  refine exists_congr fun listed => and_congr_right fun _ => and_congr_right fun hlisted => and_congr_right fun hnodup => ?_
  have hreserves : ∀ i reserve, (listed.foldl Reserves.add {}).reserves[i]? = some reserve ↔
      reserve ∈ listed ∧ reserve.config.index = i := by
    intro i reserve
    rw [reserves_foldl_add.1, getElem?_foldl_insert_eq_some_iff hnodup]
    simp [and_comm]
  have hindices : ∀ asset i, (listed.foldl Reserves.add {}).assetIndex[asset]? = some i ↔
      ∃ reserve ∈ listed, reserve.asset = asset ∧ reserve.config.index = i := by
    intro asset i
    rw [reserves_foldl_add.2, getElem?_foldl_insert_eq_some_iff (nodup_assets hlisted hnodup)]
    simp
  constructor
  · rintro ⟨-, rfl⟩
    exact ⟨hreserves, hindices⟩
  · rintro ⟨hr, hi⟩
    refine ⟨fun reserve _ => Std.ExtTreeMap.not_mem_empty, ?_⟩
    have hsame : r.reserves = (listed.foldl Reserves.add {}).reserves :=
      Std.ExtTreeMap.ext_getElem? fun i => Option.ext fun reserve => by rw [hr, hreserves]
    have hsame' : r.assetIndex = (listed.foldl Reserves.add {}).assetIndex :=
      Std.ExtTreeMap.ext_getElem? fun asset => Option.ext fun i => by rw [hi, hindices]
    obtain ⟨reserves, assetIndex⟩ := r
    subst hsame hsame'
    rfl

/-- The positions an entry decodes to, none where it does not. -/
def positionsAt (l : PoolLedger) (pool user : String) : Option Positions :=
  match l.entry (.positions pool user) with
  | some stored => (Decode.entryValue Decode.positionsValue stored).toOption
  | none => some {}

theorem positionsAt_eq_some_iff {user : String} {positions : Positions} :
    positionsAt l pool user = some positions ↔ l.HasPositions pool user positions := by
  unfold positionsAt PoolLedger.HasPositions PoolLedger.Has
  cases l.entry (.positions pool user) with
  | none => simp [eq_comm]
  | some stored => simp [toOption_eq_some_iff, Decode.entryValue_ok_iff, Decode.positionsValue_ok_iff]

theorem decodePositions_ok_iff (hread : ReadOf l keys entries) {user : String} (hkey : .positions pool user ∈ keys)
    {positions positions' : BTreeMap String Positions} :
    decodePositions pool entries positions user = .ok positions' ↔
      ∃ own, positionsAt l pool user = some own ∧ positions' = positions.insert user own := by
  unfold decodePositions positionsAt
  rw [hread.get _ hkey]
  cases l.entry (.positions pool user) with
  | none =>
    simp only [Option.map_none, pure_ok_iff, Option.some.injEq, exists_eq_left']
    exact eq_comm
  | some stored =>
    simp only [Option.map_some, Decode.entryData, bind_ok_iff, mapError_ok_iff, pure_ok_iff, toOption_eq_some_iff]
    simp only [eq_comm]

theorem decodePositions_yields (hread : ReadOf l keys entries) (hkeys : ∀ user ∈ users, .positions pool user ∈ keys)
    {positions : BTreeMap String Positions} :
    users.foldlM (decodePositions pool entries) ∅ = .ok positions ↔ l.ArePositions pool users positions := by
  have hput : ∀ (positions : BTreeMap String Positions) (user : String) (own : Positions) (a : String),
      (positions.insert user own)[a]? = if user = a then some own else positions[a]? :=
    fun positions user own a => getElem?_insert positions user a own
  rw [foldlM_gather_ok_iff (u := fun own _ => some own) hput (fun _ _ => rfl) (fun _ _ => Std.ExtTreeMap.ext_getElem?)
    fun user huser _ _ => decodePositions_ok_iff hread (hkeys user huser)]
  simp only [positionsAt_eq_some_iff, Std.ExtTreeMap.getElem?_empty]
  constructor
  · rintro ⟨hasked, hother⟩
    exact ⟨hasked, hother⟩
  · rintro ⟨hasked, hother⟩
    exact ⟨hasked, hother⟩

end Decoded

/-! ## Prices -/

section Prices

variable {oracle asset : String} {assets : List String}

theorem sameLedger_self {ledger : Nat} : sameLedger ledger ledger = .ok () := if_pos rfl

/-- The price the oracle returns for an asset, none where what it returns is not
one. -/
def priceAt (l : PoolLedger) (oracle asset : String) : Option (Option PriceData) :=
  match l.returned (.lastprice oracle asset) with
  | .ok value => (Decode.priceData value).toOption
  | .error _ => none

theorem priceAt_eq_some_iff {price : Option PriceData} :
    priceAt l oracle asset = some price ↔ l.HasPrice oracle asset price := by
  unfold priceAt PoolLedger.HasPrice
  cases l.returned (.lastprice oracle asset) with
  | ok value => simp [toOption_eq_some_iff, Decode.priceData_ok_iff]
  | error failure => simp

/-- What reading a price adds. -/
def Priced.put (priced : Priced) (asset : String) : Option PriceData → Priced
  | some price =>
    { prices := priced.prices.insert asset price.price
      timestamps := priced.timestamps.insert asset price.timestamp }
  | none => priced

theorem lastprice_yields (h : l.Standing env) {priced : Priced} :
    Yields env (lastprice oracle l.ledger priced asset) fun priced' =>
      ∃ price, priceAt l oracle asset = some price ∧ priced' = priced.put asset price := by
  unfold lastprice
  refine (Yields.bind (view_yields h) (R := fun answer priced' =>
    ∃ price, answer.2.priceData = .ok price ∧ priced.put asset price = priced')
    fun answer hanswer => ?_).congr fun priced' => ?_
  · obtain ⟨value, -, rfl⟩ := hanswer
    refine (Yields.bind_lift fun _ _ => Yields.bind_lift (R := fun price => (priced.put asset price = ·))
      fun price _ => ?_).congr fun priced' => ?_
    · cases price with
      | some price => exact Yields.pure
      | none => exact Yields.pure
    · simp [sameLedger_self]
  · unfold priceAt
    cases l.returned (.lastprice oracle asset) with
    | ok value => simp [toOption_eq_some_iff, Decode.viewValue, eq_comm (a := priced')]
    | error failure => simp

theorem oraclePrices_new_ok_iff {decimals : Nat} {found : BTreeMap String Int} {prices : OraclePrices} :
    OraclePrices.new decimals found = .ok prices ↔ decimals ≤ 38 ∧ prices.decimals = decimals ∧ prices.prices = found := by
  unfold OraclePrices.new
  simp only [bind_ok_iff, exists_and_right, pow10_ok_iff]
  obtain ⟨decimals', scalar, found', hscalar, hpos⟩ := prices
  refine and_congr_right fun _ => ?_
  by_cases hall : found.toList.all (fun entry => decide (0 < entry.2)) = true
  · rw [dif_pos hall, pure_ok_iff, OraclePrices.mk.injEq]
    constructor
    · rintro ⟨rfl, -, rfl⟩
      exact ⟨rfl, rfl⟩
    · rintro ⟨rfl, rfl⟩
      exact ⟨rfl, hscalar.symm, rfl⟩
  · rw [dif_neg hall]
    constructor
    · intro h
      cases h
    · rintro ⟨rfl, rfl⟩
      refine absurd (List.all_eq_true.2 fun entry hentry => decide_eq_true ?_) hall
      exact hpos entry.1 entry.2 (Std.ExtTreeMap.mem_toList_iff_getElem?_eq_some.1 hentry)

/-- The price read of an asset and when it was published, where there is one. -/
def Priced.look (priced : Priced) (asset : String) : Option Int × Option Nat :=
  (priced.prices[asset]?, priced.timestamps[asset]?)

theorem Priced.look_put (priced : Priced) (asset : String) (price : Option PriceData) (other : String) :
    (priced.put asset price).look other =
      if asset = other then price.elim (priced.look other) fun price => (some price.price, some price.timestamp)
      else priced.look other := by
  cases price with
  | none => simp [Priced.put]
  | some price =>
    simp only [Priced.look, Priced.put, getElem?_insert]
    split <;> rfl

theorem Priced.ext_look {priced priced' : Priced} (h : ∀ asset, priced.look asset = priced'.look asset) :
    priced = priced' := by
  have hprices : priced.prices = priced'.prices := Std.ExtTreeMap.ext_getElem? fun asset => congrArg Prod.fst (h asset)
  have htimestamps : priced.timestamps = priced'.timestamps :=
    Std.ExtTreeMap.ext_getElem? fun asset => congrArg Prod.snd (h asset)
  cases priced
  cases hprices
  cases htimestamps
  rfl

/-- What an asset's price makes of those read so far. -/
def priceStep (l : PoolLedger) (oracle : String) (priced : Priced) (asset : String) : Except Unit Priced :=
  (priceAt l oracle asset).elim (.error ()) fun price => .ok (priced.put asset price)

theorem priceStep_ok_iff {priced priced' : Priced} :
    priceStep l oracle priced asset = .ok priced' ↔
      ∃ price, priceAt l oracle asset = some price ∧ priced' = priced.put asset price := by
  unfold priceStep
  cases priceAt l oracle asset <;> simp [eq_comm]

theorem lastprices_yields (h : l.Standing env) :
    Yields env (assets.foldlM (lastprice oracle l.ledger) {}) fun priced =>
      (∀ asset ∈ assets, ∃ price, l.HasPrice oracle asset price ∧ priced.prices[asset]? = price.map (·.price) ∧
        priced.timestamps[asset]? = price.map (·.timestamp)) ∧
      ∀ asset, asset ∉ assets → priced.prices[asset]? = none ∧ priced.timestamps[asset]? = none := by
  refine (Yields.foldlM fun asset _ priced =>
    (lastprice_yields h).congr fun _ => priceStep_ok_iff.symm).congr fun priced => ?_
  refine Iff.trans (foldlM_gather_ok_iff
    (u := fun price c => price.elim c fun price => (some price.price, some price.timestamp)) Priced.look_put
    (fun price c => by cases price <;> rfl) (fun _ _ => Priced.ext_look) fun asset _ _ _ => priceStep_ok_iff) ?_
  simp only [priceAt_eq_some_iff, Priced.look, Std.ExtTreeMap.getElem?_empty, Prod.mk.injEq]
  refine and_congr_left fun _ => forall₂_congr fun asset _ => exists_congr fun price => and_congr_right fun _ => ?_
  cases price <;> simp

theorem prices_yields (h : l.Standing env) :
    Yields env (prices oracle assets l.ledger) fun answer => l.ArePrices oracle assets answer.1 answer.2 := by
  unfold prices
  refine (Yields.bind (view_yields h) (R := fun answer priced => ∃ number, answer.2.decimals = .ok number ∧
    number ≤ 38 ∧ priced.1.decimals = number ∧ (∀ asset ∈ assets, ∃ price, l.HasPrice oracle asset price ∧
      priced.1.prices[asset]? = price.map (·.price) ∧ priced.2[asset]? = price.map (·.timestamp)) ∧
    ∀ asset, asset ∉ assets → priced.1.prices[asset]? = none ∧ priced.2[asset]? = none)
    fun answer hanswer => ?_).congr fun priced => ?_
  · obtain ⟨value, -, rfl⟩ := hanswer
    refine (Yields.bind_lift fun _ _ => Yields.bind_lift fun number _ => (lastprices_yields h).bind fun priced _ =>
      Yields.bind_lift fun prices _ => Yields.pure).congr fun answer => ?_
    obtain ⟨prices, timestamps⟩ := answer
    simp only [sameLedger_self, mapError_ok_iff, oraclePrices_new_ok_iff]
    constructor
    · rintro ⟨-, -, number, hnumber, ⟨found, stamps⟩, ⟨hlisted, hother⟩, prices', ⟨hle, hdecimals, hfound⟩, heq⟩
      cases heq
      cases hfound
      exact ⟨number, hnumber, hle, hdecimals, hlisted, hother⟩
    · rintro ⟨number, hnumber, hle, hdecimals, hlisted, hother⟩
      exact ⟨(), trivial, number, hnumber, ⟨prices.prices, timestamps⟩, ⟨hlisted, hother⟩, prices,
        ⟨hle, hdecimals, rfl⟩, rfl⟩
  · constructor
    · rintro ⟨-, ⟨value, hreturned, rfl⟩, number, hnumber, hle, hdecimals, hlisted, hother⟩
      obtain ⟨n, rfl, rfl⟩ := Decode.decimals_ok_iff.1 hnumber
      exact ⟨⟨n, hreturned, hdecimals⟩, hdecimals ▸ hle, hlisted, hother⟩
    · rintro ⟨⟨n, hreturned, hdecimals⟩, hle, hlisted, hother⟩
      exact ⟨_, ⟨_, hreturned, rfl⟩, n.toNat, Decode.decimals_ok_iff.2 ⟨n, rfl, rfl⟩, hdecimals ▸ hle, hdecimals, hlisted,
        hother⟩

end Prices

/-! ## The snapshot -/

theorem snapshotOnce_yields (h : l.Standing env) : Yields env (snapshotOnce pool users) (l.IsSnapshot pool users) := by
  unfold snapshotOnce
  refine (Yields.bind (shape_yields h) (R := fun answer s => s.ledger = l.ledger ∧ s.pool = pool ∧
    s.poolInstance = answer.2.1 ∧ s.bstopRate = answer.2.1.config.bstopRate ∧ (answer.2.2 ≠ [] ∨ users ≠ []) ∧
    l.AreReserves pool answer.2.2 s.reserves s.assetIndex ∧
    l.ArePrices answer.2.1.config.oracle answer.2.2 s.prices s.priceTimestamps ∧ l.ArePositions pool users s.positions)
    fun answer hanswer => ?_).congr fun s => ?_
  · obtain ⟨ledger, poolInstance, assets⟩ := answer
    obtain ⟨hledger, -, -⟩ := hanswer
    dsimp only at hledger ⊢
    subst hledger
    by_cases hwanted : wanted pool assets users = []
    · have hnone : Yields env (ledgerEntries (wanted pool assets users)) fun _ => False := by
        rw [hwanted]
        exact Yields.fail
      refine (hnone.bind (R := fun _ _ => False) fun _ hfalse => hfalse.elim).congr fun s => ?_
      rw [wanted, List.append_eq_nil_iff, List.flatMap_eq_nil_iff, List.map_eq_nil_iff] at hwanted
      have hassets : assets = [] := List.eq_nil_iff_forall_not_mem.2 fun asset hasset =>
        absurd (hwanted.1 asset hasset) (List.cons_ne_nil _ _)
      simp [hassets, hwanted.2]
    · refine Yields.bind_reached (ledgerEntries_obtains h hwanted) fun entries hentries => ?_
      refine (Yields.bind_lift fun _ _ => Yields.bind_lift fun r _ => Yields.bind_lift fun positions _ =>
        (prices_yields h).bind fun priced _ => Yields.pure).congr fun s => ?_
      have hlisted : ∀ asset ∈ assets, .reserveConfig pool asset ∈ wanted pool assets users ∧
          .reserveData pool asset ∈ wanted pool assets users := by
        intro asset hasset
        simp [wanted, hasset]
      have hasked : ∀ user ∈ users, .positions pool user ∈ wanted pool assets users := by
        intro user huser
        simp [wanted, huser]
      obtain ⟨⟨ledger, bstopRate, reserves, prices, positions⟩, pool', instance', assetIndex, timestamps⟩ := s
      simp only [hentries.ledger, sameLedger_self, decodeReserves_yields hentries hlisted,
        decodePositions_yields hentries hasked]
      constructor
      · rintro ⟨-, -, r, hr, found, hfound, priced, hpriced, heq⟩
        cases heq
        have hsome : assets ≠ [] ∨ users ≠ [] := by
          by_contra hnone
          rw [not_or, not_not, not_not] at hnone
          exact hwanted (by simp [wanted, hnone])
        exact ⟨rfl, rfl, rfl, rfl, hsome, hr, hpriced, hfound⟩
      · rintro ⟨rfl, rfl, rfl, rfl, -, hr, hpriced, hfound⟩
        exact ⟨(), trivial, ⟨reserves, assetIndex⟩, hr, positions, hfound, (prices, timestamps), hpriced, rfl⟩
  · constructor
    · rintro ⟨⟨ledger, poolInstance, assets⟩, ⟨-, hinstance, hlist⟩, hledger, hpool, rfl, hrate, hsome, hr, hpriced, hfound⟩
      exact ⟨assets, hledger, hpool, hrate, hsome, hinstance, hlist, hr, hpriced, hfound⟩
    · rintro ⟨assets, hledger, hpool, hrate, hsome, hinstance, hlist, hr, hpriced, hfound⟩
      exact ⟨(l.ledger, s.poolInstance, assets), ⟨rfl, hinstance, hlist⟩, hledger, hpool, rfl, hrate, hsome, hr, hpriced,
        hfound⟩

/-- On a ledger that stands still a snapshot is given exactly where what it needs
is there in the contract's format, and is what the ledger stores. -/
theorem snapshot_of_standing (h : l.Standing env) (t : Nat) (s : FullSnapshot) :
    (snapshot pool users env t []).1 = .ok s ↔ l.IsSnapshot pool users s := by
  obtain ⟨moved, start, r, last, reads, -, -, hlast, heq⟩ := retrying_eq env pool users (SNAPSHOT_ATTEMPTS - 1) t []
  have hrun : snapshot pool users env t [] = (r, last, [] ++ moved ++ [reads]) := heq
  have honce : Yields env (snapshotOnce pool users) (l.IsSnapshot pool users) := snapshotOnce_yields h
  have hanswers := (honce start [] trivial).2 s
  rw [hlast] at hanswers
  rw [hrun]
  exact hanswers

/-- An entry that holds a struct of these fields. -/
def structEntry (fields : List (String × ScVal)) : StoredEntry :=
  .contractData (.val (.map (.ofList (fields.map fun field => (.symbol field.1, field.2))))) ""

/-- A pool of one reserve, its fields in no order of theirs. -/
def sampleLedger : PoolLedger where
  ledger := 10
  entry
    | .poolInstance "pool" => some (.contractData (.contractInstance
      [(.symbol "Name", .string "Pool" ""), (.symbol "Admin", .val (.address "admin")),
        (.symbol "Backstop", .val (.address "backstop")), (.symbol "BLNDTkn", .val (.address "token")),
        (.symbol "Config", .val (.map (.ofList [(.symbol "status", .u32 0), (.symbol "oracle", .address "oracle"),
          (.symbol "min_collateral", .i128 0 5), (.symbol "bstop_rate", .u32 1),
          (.symbol "max_positions", .u32 4)])))] "") "")
    | .reserveList "pool" => some (.contractData (.val (.vec (.ofList [.address "asset"]))) "")
    | .reserveConfig "pool" "asset" => some (structEntry (("enabled", .bool true) :: ("supply_cap", .i128 0 9) ::
      ["index", "decimals", "c_factor", "l_factor", "util", "max_util", "r_base", "r_one", "r_two", "r_three",
        "reactivity"].map (·, .u32 7)))
    | .reserveData "pool" "asset" => some (structEntry (("last_time", .u64 100) ::
      ["d_rate", "b_rate", "ir_mod", "b_supply", "d_supply", "backstop_credit"].map (·, .i128 0 1)))
    | _ => none
  returned
    | .decimals _ => .ok (.u32 7)
    | .lastprice _ _ => .ok (.map (.ofList [(.symbol "timestamp", .u64 90), (.symbol "price", .i128 0 3)]))
    | .balance _ _ => .error ("not a token", none)

theorem snapshot_of_standing_sample : ∃ s, (snapshot "pool" ["user"] (fun _ => sampleLedger.plainly) 0 []).1 = .ok s ∧
    sampleLedger.IsSnapshot "pool" ["user"] s ∧ s.assetIndex["asset"]? = some 7 ∧ s.prices.prices["asset"]? = some 3 ∧
    s.positions["user"]? = some {} := by
  obtain ⟨s, hs, hread⟩ : ∃ s, (snapshot "pool" ["user"] (fun _ => sampleLedger.plainly) 0 []).1 = .ok s ∧
      s.assetIndex["asset"]? = some 7 ∧ s.prices.prices["asset"]? = some 3 ∧ s.positions["user"]? = some {} :=
    ⟨_, rfl, rfl, rfl, rfl⟩
  exact ⟨s, hs, (snapshot_of_standing (fun _ => sampleLedger.answeredBy_plainly) 0 s).1 hs, hread⟩

end PoolReader

end BlendLiquidator
