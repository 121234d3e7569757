/-
What a start that goes through has established.

Every pool was read and fits its configuration, and all of them share the one
backstop; an armed start has a filler account that holds the reserve. Each key
has one worker, whichever roles sign with it, and the auctioneer sends nothing
about an account that a worker signs for.
-/
import BlendLiquidator.AuctioneerLoopFacts
import BlendLiquidator.ConfigFacts
import BlendLiquidator.Startup

namespace BlendLiquidator

open Calls Results

/-! ## One pool -/

/-- What a pool's configuration asks of the pool. -/
structure PoolConfig.Fits (pool : PoolConfig) (snapshot : FullSnapshot) : Prop where
  primary : ∃ (index : Nat) (reserve : Reserve), snapshot.assetIndex[pool.primaryAsset]? = some index ∧
    snapshot.reserves[index]? = some reserve ∧ reserve.config.enabled = true ∧ reserve.config.cFactor ≠ 0
  supportedBid : ∀ asset ∈ pool.supportedBid, asset = "*" ∨ snapshot.assetIndex.contains asset
  supportedLot : ∀ asset ∈ pool.supportedLot, asset = "*" ∨ snapshot.assetIndex.contains asset
  maxPositions : 2 ≤ snapshot.poolInstance.config.maxPositions

section Pool

variable {pool : PoolConfig} {snapshot : FullSnapshot} {v v' : Validated} {name asset : String} {assets : List String}

theorem validatePrimaryAsset_ok_iff {full : FullSnapshot} : validatePrimaryAsset name asset full = .ok () ↔
    ∃ (index : Nat) (reserve : Reserve), full.assetIndex[asset]? = some index ∧ full.reserves[index]? = some reserve ∧
      reserve.config.enabled = true ∧ reserve.config.cFactor ≠ 0 := by
  unfold validatePrimaryAsset
  cases hindex : full.assetIndex[asset]? with
  | none => simp
  | some index =>
    cases hreserve : full.reserves[index]? with
    | none => simp [hreserve]
    | some reserve =>
      simp only [Option.bind_some, hreserve, Option.some.injEq]
      split_ifs with hdisabled hzero
      · simp_all
      · simp_all
      · simp_all

theorem validateSupportedAssets_ok_iff {full : FullSnapshot} : validateSupportedAssets name assets full = .ok () ↔
    ∀ asset ∈ assets, asset = "*" ∨ full.assetIndex.contains asset := by
  unfold validateSupportedAssets
  rw [forM_ok_iff]
  refine forall_congr' fun asset => imp_congr_right fun _ => ?_
  split_ifs with h
  · simp only [false_iff]
    tauto
  · simp only [true_iff]
    tauto

theorem sameBackstop_ok_iff {backstop : String} {shared : Option (String × String)} {first : String × String} :
    sameBackstop name backstop shared = .ok first ↔
      first = shared.getD (name, backstop) ∧ first.2 = backstop := by
  cases shared with
  | none =>
    simp only [sameBackstop, Except.ok.injEq, Option.getD_none]
    constructor
    · rintro rfl
      exact ⟨rfl, rfl⟩
    · rintro ⟨rfl, -⟩
      rfl
  | some shared =>
    obtain ⟨firstPool, firstBackstop⟩ := shared
    simp only [sameBackstop, Option.getD_some]
    split_ifs with hne
    · simp only [false_iff]
      rintro ⟨rfl, heq⟩
      exact hne heq
    · simp only [Except.ok.injEq]
      constructor
      · rintro rfl
        exact ⟨rfl, not_not.1 hne⟩
      · rintro ⟨rfl, -⟩
        rfl

/-- A pool passes exactly where it fits and shares the backstop. -/
theorem validatePool_ok_iff : validatePool v pool snapshot = .ok v' ↔
    pool.Fits snapshot ∧
      (v.sharedBackstop.getD (pool.address, snapshot.poolInstance.backstop)).2 = snapshot.poolInstance.backstop ∧
      v' = {
        validations := v.validations ++ [⟨pool.address, snapshot.reserves.size, snapshot.poolInstance.backstop⟩]
        warnings := v.warnings ++ poolWarnings pool.address snapshot
        sharedBackstop := some (v.sharedBackstop.getD (pool.address, snapshot.poolInstance.backstop)) } := by
  unfold validatePool
  constructor
  · intro h
    obtain ⟨first, hfirst, h⟩ := bind_ok_iff.1 h
    obtain ⟨⟨⟩, hprimary, h⟩ := bind_ok_iff.1 h
    obtain ⟨⟨⟩, hbid, h⟩ := bind_ok_iff.1 h
    obtain ⟨⟨⟩, hlot, h⟩ := bind_ok_iff.1 h
    obtain ⟨rfl, hsame⟩ := sameBackstop_ok_iff.1 hfirst
    by_cases hcap : snapshot.poolInstance.config.maxPositions < 2
    · rw [if_pos hcap] at h
      cases h
    rw [if_neg hcap] at h
    exact ⟨⟨validatePrimaryAsset_ok_iff.1 hprimary, validateSupportedAssets_ok_iff.1 hbid,
      validateSupportedAssets_ok_iff.1 hlot, by omega⟩, hsame, (pure_ok_iff.1 h).symm⟩
  · rintro ⟨hfits, hsame, rfl⟩
    refine bind_ok_iff.2 ⟨_, sameBackstop_ok_iff.2 ⟨rfl, hsame⟩, ?_⟩
    refine bind_ok_iff.2 ⟨(), validatePrimaryAsset_ok_iff.2 hfits.primary, ?_⟩
    refine bind_ok_iff.2 ⟨(), validateSupportedAssets_ok_iff.2 hfits.supportedBid, ?_⟩
    refine bind_ok_iff.2 ⟨(), validateSupportedAssets_ok_iff.2 hfits.supportedLot, ?_⟩
    rw [if_neg (not_lt.2 hfits.maxPositions)]
    rfl

end Pool

/-! ## Every pool -/

/-- What was found of pools that passed, and the snapshots it was found in. -/
structure Validated.Of (v : Validated) (pools : List PoolConfig) (snapshots : List FullSnapshot) : Prop where
  fits : List.Forall₂ (fun pool snapshot => pool.Fits snapshot) pools snapshots
  backstop : ∀ snapshot ∈ snapshots, ∃ first, v.sharedBackstop = some first ∧ first.2 = snapshot.poolInstance.backstop
  unshared : snapshots = [] → v.sharedBackstop = none
  validations : v.validations = List.zipWith (fun pool snapshot =>
    ⟨pool.address, snapshot.reserves.size, snapshot.poolInstance.backstop⟩) pools snapshots
  warnings : v.warnings = (List.zipWith (fun pool snapshot =>
    poolWarnings pool.address snapshot) pools snapshots).flatten

/-- A pool's read on the record. -/
def readOf (pool : PoolConfig) (snapshot : FullSnapshot) : Entry StartCall.Answer :=
  ⟨.snapshot pool.address [], .ok snapshot⟩

/-- The first pool that does not pass, read last: it did not answer, does not
fit, or has a backstop of its own. -/
def PoolsRefused (pools : List PoolConfig) (l : List (Entry StartCall.Answer)) (error : LiquidatorError) : Prop :=
  ∃ passed snapshots pool after, pools = passed ++ pool :: after ∧
    List.Forall₂ (fun pool snapshot => pool.Fits snapshot) passed snapshots ∧
    ((∃ failure, l = List.zipWith readOf passed snapshots ++ [⟨.snapshot pool.address [], .error failure⟩] ∧
        error = .chain failure) ∨
      ∃ snapshot, l = List.zipWith readOf passed snapshots ++ [readOf pool snapshot] ∧
        ¬(pool.Fits snapshot ∧ ∀ earlier ∈ snapshots, earlier.poolInstance.backstop = snapshot.poolInstance.backstop))

section Pools

variable {v v' : Validated} {pools passed rest : List PoolConfig} {snapshots : List FullSnapshot} {pool : PoolConfig}
  {snapshot : FullSnapshot}

theorem Validated.of_nothing : Validated.Of {} [] [] :=
  ⟨.nil, fun _ h => absurd h List.not_mem_nil, fun _ => rfl, rfl, rfl⟩

/-- The pools passed share a backstop with the next exactly where the first does. -/
theorem Validated.Of.shares (h : v.Of pools snapshots) {name : String} :
    (v.sharedBackstop.getD (name, snapshot.poolInstance.backstop)).2 = snapshot.poolInstance.backstop ↔
      ∀ earlier ∈ snapshots, earlier.poolInstance.backstop = snapshot.poolInstance.backstop := by
  cases snapshots with
  | nil => simp [h.unshared rfl]
  | cons first others =>
    obtain ⟨shared, hshared, hfirst⟩ := h.backstop first List.mem_cons_self
    rw [hshared, Option.getD_some]
    constructor
    · intro heq earlier hearlier
      obtain ⟨shared', hshared', hearlier⟩ := h.backstop earlier hearlier
      rw [hshared] at hshared'
      cases hshared'
      rw [← hearlier, heq]
    · intro hall
      rw [hfirst, hall first List.mem_cons_self]

theorem Validated.Of.add (h : v.Of pools snapshots) (hpool : validatePool v pool snapshot = .ok v') :
    v'.Of (pools ++ [pool]) (snapshots ++ [snapshot]) := by
  obtain ⟨hfits, hsame, rfl⟩ := validatePool_ok_iff.1 hpool
  have hlength := h.fits.length_eq
  refine ⟨List.rel_append h.fits (.cons hfits .nil), fun s hs => ⟨_, rfl, ?_⟩, fun hnil => ?_, ?_, ?_⟩
  · rcases List.mem_append.1 hs with hs | hs
    · rw [hsame]
      exact (h.shares.1 hsame s hs).symm
    · rw [List.mem_singleton.1 hs]
      exact hsame
  · simp at hnil
  · rw [List.zipWith_append hlength, h.validations]
    rfl
  · rw [List.zipWith_append hlength, List.flatten_append, h.warnings]
    simp

theorem validatePools_keeps : ∀ {rest passed : List PoolConfig} {snapshots : List FullSnapshot} {v : Validated},
    v.Of passed snapshots →
    Keeps (fun _ _ _ => True) (fun _ _ => True) (fun l r =>
      (∀ v', r = .ok v' → ∃ snapshots, v'.Of (passed ++ rest) snapshots ∧
        l = List.zipWith readOf (passed ++ rest) snapshots) ∧
      ∀ error, r = .error error → PoolsRefused (passed ++ rest) l error)
    (List.zipWith readOf passed snapshots) (validatePools v rest)
  | [], passed, snapshots, v, h => by
    refine ⟨fun v' heq => ?_, fun error heq => by cases heq⟩
    cases heq
    exact ⟨snapshots, by rwa [List.append_nil], by rw [List.append_nil]⟩
  | pool :: rest, passed, snapshots, v, h => by
    have hlength := h.fits.length_eq
    refine Keeps.bind_call trivial fun answer _ => Keeps.bind_lift (fun snapshot hanswer => ?_) fun error herror => ?_
    · rw [mapError_ok_iff] at hanswer
      subst hanswer
      have hrecord : List.zipWith readOf passed snapshots ++ [readOf pool snapshot] =
          List.zipWith readOf (passed ++ [pool]) (snapshots ++ [snapshot]) := by
        rw [List.zipWith_append hlength]
        rfl
      refine Keeps.bind_lift (fun v' hv' => ?_) fun error herror => ⟨fun v' heq => (by cases heq), fun e heq => ?_⟩
      · have hnext := @validatePools_keeps rest _ _ _ (h.add hv')
        rw [← hrecord] at hnext
        rw [← List.append_cons passed pool rest] at hnext
        exact hnext
      · cases heq
        refine ⟨passed, snapshots, pool, rest, rfl, h.fits, .inr ⟨snapshot, rfl, fun hpass => ?_⟩⟩
        rw [validatePool_ok_iff.2 ⟨hpass.1, h.shares.2 hpass.2, rfl⟩] at herror
        cases herror
    · refine ⟨fun v' heq => (by cases heq), fun e heq => ?_⟩
      cases heq
      obtain ⟨failure, rfl, rfl⟩ := mapError_error_iff.1 herror
      exact ⟨passed, snapshots, pool, rest, rfl, h.fits, .inl ⟨failure, rfl, rfl⟩⟩

theorem validate_keeps : Keeps (fun _ _ _ => True) (fun _ _ => True) (fun l r =>
      (∀ validations warnings, r = .ok (validations, warnings) → ∃ v snapshots, Validated.Of v pools snapshots ∧
        l = List.zipWith readOf pools snapshots ∧ validations = v.validations ∧ warnings = v.warnings) ∧
      ∀ error, r = .error error → PoolsRefused pools l error) [] (validate pools) := by
  have hpools := @validatePools_keeps pools _ _ _ Validated.of_nothing
  refine Keeps.bind hpools (fun l v h => ?_) fun l error h => ?_
  · obtain ⟨snapshots, hof, hl⟩ := h.1 v rfl
    refine ⟨fun validations warnings heq => ?_, fun error heq => by cases heq⟩
    cases heq
    exact ⟨v, snapshots, hof, hl, rfl, rfl⟩
  · refine ⟨fun _ _ heq => (by cases heq), fun _ heq => ?_⟩
    cases heq
    exact h.2 error rfl

end Pools

/-! ## The filler -/

/-- The filler's account is there, and holds the reserve. -/
structure FillerReady (config : ServiceConfig) (signing : SigningContext) (l : List (Entry StartCall.Answer)) : Prop where
  account : ∀ shared, signing.signers.filler = some shared →
    (⟨.account shared.signer.address, .ok ()⟩ : Entry StartCall.Answer) ∈ l
  reserve : ∀ shared pool rest, signing.signers.filler = some shared → config.pools = pool :: rest →
    ∃ held : Int, (config.xlmFeeReserve : Int) ≤ held ∧
      (⟨.balance pool.address signing.nativeAsset shared.signer.address, .ok held⟩ : Entry StartCall.Answer) ∈ l

/-- Why an armed start is refused for its filler. -/
inductive FillerRefused (config : ServiceConfig) (signing : SigningContext) (l : List (Entry StartCall.Answer)) :
    LiquidatorError → Prop
  | account {shared : SharedSigner} {missing : String} : config.dryRun = false → signing.signers.filler = some shared →
    (⟨.account shared.signer.address, .error (.noAccount missing)⟩ : Entry StartCall.Answer) ∈ l →
    FillerRefused config signing l (.config (noFillerAccount shared.signer.address))
  | reserve {shared : SharedSigner} {pool : PoolConfig} {rest : List PoolConfig} {held : Int} : config.dryRun = false →
    signing.signers.filler = some shared → config.pools = pool :: rest → held < config.xlmFeeReserve →
    (⟨.balance pool.address signing.nativeAsset shared.signer.address, .ok held⟩ : Entry StartCall.Answer) ∈ l →
    FillerRefused config signing l (.config (belowReserve shared.signer.address held config.xlmFeeReserve))

/-- What a filler's check has added to the record, and what it rests on. -/
structure FillerChecked (config : ServiceConfig) (signing : SigningContext) (l l' : List (Entry StartCall.Answer))
    (r : Except LiquidatorError (List String)) : Prop where
  onRecord : l <+: l'
  ready : ∀ warnings, r = .ok warnings → config.dryRun = false → FillerReady config signing l'
  refused : ∀ error, r = .error error → (∃ failure, error = .chain failure) ∨ FillerRefused config signing l' error

section Filler

variable {display : MathError → String} {config : ServiceConfig} {signing : SigningContext}
  {l l' : List (Entry StartCall.Answer)}

/-- Reading the collateral fails with the chain alone. -/
theorem collateralWarnings_keeps {filler : String} : ∀ {pools : List PoolConfig} {l : List (Entry StartCall.Answer)},
    Keeps (fun _ _ _ => True) (fun _ _ => True) (fun l' r => l <+: l' ∧ ∀ error, r = .error error →
      ∃ failure, error = .chain failure) l (collateralWarnings display filler pools)
  | [], l => ⟨List.prefix_rfl, fun _ heq => by cases heq⟩
  | pool :: pools, l => by
    refine Keeps.bind_call trivial fun answer _ => Keeps.bind_lift (fun snapshot _ => ?_) fun error herror => ?_
    · refine Keeps.bind collateralWarnings_keeps (fun l' more h => ?_) fun l' error h => ?_
      · exact ⟨(List.prefix_append _ _).trans h.1, fun _ heq => by cases heq⟩
      · exact ⟨(List.prefix_append _ _).trans h.1, fun _ heq => by cases heq; exact h.2 error rfl⟩
    · refine ⟨List.prefix_append _ _, fun _ heq => ?_⟩
      cases heq
      obtain ⟨failure, -, rfl⟩ := mapError_error_iff.1 herror
      exact ⟨failure, rfl⟩

theorem FillerChecked.passed (hl : l <+: l') (h : config.dryRun = false → FillerReady config signing l')
    {warnings : List String} : FillerChecked config signing l l' (.ok warnings) :=
  ⟨hl, fun _ _ => h, fun _ heq => by cases heq⟩

theorem FillerChecked.failed (hl : l <+: l') {error : LiquidatorError}
    (h : (∃ failure, error = .chain failure) ∨ FillerRefused config signing l' error) :
    FillerChecked config signing l l' (.error error) :=
  ⟨hl, fun _ heq => (by cases heq), fun _ heq => by cases heq; exact h⟩

theorem FillerReady.of_read {shared : SharedSigner} {pool : PoolConfig} {rest : List PoolConfig} {held : Int}
    (hfiller : signing.signers.filler = some shared) (hpools : config.pools = pool :: rest)
    (haccount : (⟨.account shared.signer.address, .ok ()⟩ : Entry StartCall.Answer) ∈ l)
    (hbalance : (⟨.balance pool.address signing.nativeAsset shared.signer.address, .ok held⟩ : Entry StartCall.Answer) ∈ l)
    (hheld : (config.xlmFeeReserve : Int) ≤ held) : FillerReady config signing l := by
  refine ⟨fun shared' hshared' => ?_, fun shared' pool' rest' hshared' hpools' => ?_⟩
  · rw [hfiller] at hshared'
    cases hshared'
    exact haccount
  · rw [hfiller] at hshared'
    cases hshared'
    rw [hpools] at hpools'
    cases hpools'
    exact ⟨held, hheld, hbalance⟩

/-- A filler's check passes an armed start whose filler is ready, and refuses it
for what is missing; a dry run is stopped by the chain alone. -/
theorem validateFiller_keeps : Keeps (fun _ _ _ => True) (fun _ _ => True) (FillerChecked config signing l) l
    (validateFiller display config signing) := by
  unfold validateFiller
  cases hfiller : signing.signers.filler with
  | none =>
    refine .passed List.prefix_rfl fun _ => ⟨fun _ h => ?_, fun _ _ _ h => ?_⟩
    · rw [hfiller] at h
      cases h
    · rw [hfiller] at h
      cases h
  | some shared =>
    refine Keeps.bind_call trivial fun answer _ => ?_
    have hread : (⟨.account shared.signer.address, answer⟩ : Entry StartCall.Answer) ∈
        l ++ [⟨.account shared.signer.address, answer⟩] := List.mem_append_right l (List.mem_singleton_self _)
    have hasked : l <+: l ++ [(⟨.account shared.signer.address, answer⟩ : Entry StartCall.Answer)] := List.prefix_append _ _
    split
    · cases hdry : config.dryRun with
      | true => exact .passed hasked fun hlive => by rw [hdry] at hlive; cases hlive
      | false => exact .failed hasked (.inr (.account hdry hfiller hread))
    · next error _ => exact .failed hasked (.inl ⟨error, rfl⟩)
    · split
      · next hpools =>
        refine .passed hasked fun _ => ⟨fun shared' hshared' => ?_, fun _ _ _ _ hpools' => ?_⟩
        · rw [hfiller] at hshared'
          cases hshared'
          exact hread
        · rw [hpools] at hpools'
          cases hpools'
      · next anyPool rest hpools =>
        refine Keeps.bind_call trivial fun answer _ => Keeps.bind_lift (fun held hheld => ?_) fun error herror => ?_
        · rw [mapError_ok_iff] at hheld
          subst hheld
          have hbalance : (⟨.balance anyPool.address signing.nativeAsset shared.signer.address, .ok held⟩ :
              Entry StartCall.Answer) ∈ l ++ [⟨.account shared.signer.address, .ok ()⟩] ++
                [⟨.balance anyPool.address signing.nativeAsset shared.signer.address, .ok held⟩] :=
            List.mem_append_right _ (List.mem_singleton_self _)
          have hasked' := hasked.trans (List.prefix_append _
            [(⟨.balance anyPool.address signing.nativeAsset shared.signer.address, .ok held⟩ : Entry StartCall.Answer)])
          refine Keeps.bind_lift (fun warnings hwarnings => ?_) fun error herror => ?_
          · split
            · next hdry =>
              refine .passed hasked' fun hlive => ?_
              rw [hlive] at hdry
              cases hdry
            · refine Keeps.bind collateralWarnings_keeps (fun l' more h => ?_) fun l' error h => ?_
              · refine .passed (hasked'.trans h.1) fun hlive => ?_
                refine .of_read hfiller hpools (h.1.subset (List.mem_append_left _ hread)) (h.1.subset hbalance) ?_
                by_contra hshort
                rw [reserveWarnings, if_pos (not_le.1 hshort), hlive] at hwarnings
                cases hwarnings
              · exact .failed (hasked'.trans h.1) (.inl (h.2 error rfl))
          · unfold reserveWarnings at herror
            split at herror
            · next hshort =>
              cases hdry : config.dryRun with
              | true =>
                rw [hdry] at herror
                cases herror
              | false =>
                rw [hdry] at herror
                cases herror
                exact .failed hasked' (.inr (.reserve hdry hfiller hpools hshort hbalance))
            · cases herror
        · obtain ⟨failure, -, rfl⟩ := mapError_error_iff.1 herror
          exact .failed (hasked.trans (List.prefix_append _ _)) (.inl ⟨failure, rfl⟩)

end Filler

/-- **A start that goes through has checked what it runs on.** Every pool was
first read, in the configuration's order, and fits it, and all report the one
backstop; armed, the filler's account is there and holds the reserve. A start is
refused at the first pool that does not pass, with every one before it in order,
or by the chain, or, armed alone, for its filler. -/
theorem start_has_checked (display : MathError → String) (config : ServiceConfig)
    (nativeAssetContract : Except ChainError String) (keys : SigningKeys) :
    Keeps (fun _ _ _ => True) (fun _ _ => True) (fun l r =>
      (∀ signing validations warnings, r = .ok (signing, validations, warnings) →
        SigningContext.fromConfig nativeAssetContract keys = .ok signing ∧
        (∃ snapshots, List.zipWith readOf config.pools snapshots <+: l ∧
          List.Forall₂ (fun pool snapshot => pool.Fits snapshot) config.pools snapshots ∧
          (∀ s ∈ snapshots, ∀ s' ∈ snapshots, s.poolInstance.backstop = s'.poolInstance.backstop) ∧
          validations = List.zipWith (fun pool snapshot =>
            ⟨pool.address, snapshot.reserves.size, snapshot.poolInstance.backstop⟩) config.pools snapshots) ∧
        (config.dryRun = false → FillerReady config signing l)) ∧
      ∀ error, r = .error error → PoolsRefused config.pools l error ∨ (∃ failure, error = .chain failure) ∨
        ∃ signing, SigningContext.fromConfig nativeAssetContract keys = .ok signing ∧ FillerRefused config signing l error)
    [] (startChecks display config nativeAssetContract keys) := by
  refine Keeps.bind validate_keeps (fun l found h => ?_) fun l error h => ?_
  · obtain ⟨validations, warnings⟩ := found
    obtain ⟨v, snapshots, hof, rfl, rfl, rfl⟩ := h.1 validations warnings rfl
    refine Keeps.bind_lift (fun signing hsigning => ?_) fun error herror => ?_
    · refine Keeps.bind validateFiller_keeps (fun l' more hchecked => ?_) fun l' error hchecked => ?_
      · refine ⟨fun signing' validations' warnings' heq => ?_, fun error heq => by cases heq⟩
        cases heq
        refine ⟨hsigning, ⟨snapshots, hchecked.onRecord, hof.fits, fun s hs s' hs' => ?_, hof.validations⟩,
          hchecked.ready more rfl⟩
        obtain ⟨first, hfirst, hs⟩ := hof.backstop s hs
        obtain ⟨first', hfirst', hs'⟩ := hof.backstop s' hs'
        rw [hfirst] at hfirst'
        cases hfirst'
        rw [← hs, ← hs']
      · refine ⟨fun _ _ _ heq => (by cases heq), fun _ heq => ?_⟩
        cases heq
        rcases hchecked.refused error rfl with hfailure | hrefused
        · exact .inr (.inl hfailure)
        · exact .inr (.inr ⟨signing, hsigning, hrefused⟩)
    · refine ⟨fun _ _ _ heq => (by cases heq), fun _ heq => ?_⟩
      cases heq
      obtain ⟨native, -, herror⟩ : ∃ failure, nativeAssetContract = .error failure ∧ LiquidatorError.chain failure = error := by
        rcases bind_error_iff.1 herror with herror | ⟨_, _, herror⟩
        · exact mapError_error_iff.1 herror
        · cases herror
      exact .inr (.inl ⟨native, herror.symm⟩)
  · refine ⟨fun _ _ _ heq => (by cases heq), fun _ heq => ?_⟩
    cases heq
    exact .inl (h.2 error rfl)

/-! ## Keys and queues -/

section Keys

variable {args : Args} {lib : ConfigLibrary} {fillerSecret auctioneerSecret : Option String} {keys : SigningKeys}
  {signing : SigningContext} {nativeAssetContract : Except ChainError String}

/-- Two accepted keys are two accounts', and an armed bot has the filler's. -/
theorem Args.signingKeys_ok (h : args.signingKeys lib fillerSecret auctioneerSecret = .ok keys) :
    (∀ a f, keys.auctioneer = some a → keys.filler = some f → a.address ≠ f.address) ∧
      (args.dryRun = false → keys.filler.isSome) := by
  unfold signingKeys at h
  obtain ⟨auctioneer, -, h⟩ := bind_ok_iff.1 h
  obtain ⟨filler, -, h⟩ := bind_ok_iff.1 h
  have hend : ∀ {armed : Bool} {refusal : LiquidatorError}, (if (armed && filler.isNone) = true then
      (throw refusal >>= fun _ : Unit => pure { auctioneer, filler } : Except LiquidatorError SigningKeys)
      else pure { auctioneer, filler }) = .ok keys → keys = { auctioneer, filler } ∧ (armed = true → filler.isSome) := by
    intro armed refusal hif
    split at hif
    · cases hif
    · next harmed =>
      cases hif
      refine ⟨rfl, fun htrue => ?_⟩
      cases filler with
      | none => simp [htrue] at harmed
      | some filler => rfl
  cases auctioneer with
  | none =>
    obtain ⟨rfl, harmed⟩ := hend h
    exact ⟨fun _ _ ha => (by cases ha), fun hdry => harmed (by rw [hdry]; rfl)⟩
  | some a =>
    cases filler with
    | none =>
      obtain ⟨rfl, harmed⟩ := hend h
      exact ⟨fun _ _ _ hf => (by cases hf), fun hdry => harmed (by rw [hdry]; rfl)⟩
    | some f =>
      dsimp only at h
      by_cases hsame : a.address = f.address
      · rw [if_pos hsame] at h
        cases h
      · rw [if_neg hsame] at h
        obtain ⟨rfl, harmed⟩ := hend h
        refine ⟨fun a' f' ha hf => ?_, fun _ => rfl⟩
        cases ha
        cases hf
        exact hsame

theorem SigningKeys.mem_ownAddresses {address : String} : address ∈ keys.ownAddresses ↔
    (∃ a, keys.auctioneer = some a ∧ a.address = address) ∨ ∃ f, keys.filler = some f ∧ f.address = address := by
  unfold ownAddresses
  cases keys.auctioneer <;> cases keys.filler <;> simp [or_comm]

theorem SigningContext.fromConfig_ok (h : SigningContext.fromConfig nativeAssetContract keys = .ok signing) :
    signing.signers = keys.intoSigners ∧ signing.ownAddresses = keys.ownAddresses := by
  obtain ⟨native, -, h⟩ := bind_ok_iff.1 h
  cases pure_ok_iff.1 h
  exact ⟨rfl, rfl⟩

end Keys

/-- Who signs what: a key has one worker, each role's queue is the worker of
the role's own key, and no worker signs for an account the bot would act on. -/
structure Wired (signing : SigningContext) (workers : List SharedSigner) (queues : Queues) : Prop where
  distinct : (workers.map (·.signer.address)).Nodup
  own : ∀ worker ∈ workers, worker.signer.address ∈ signing.ownAddresses
  auctioneer : ∀ queue, queues.auctioneer = some queue → ∃ signer, signing.signers.auctioneer = some signer ∧
    workers[queue]? = some signer
  filler : ∀ queue, queues.filler = some queue → ∃ signer, signing.signers.filler = some signer ∧
    workers[queue]? = some signer

theorem spawnQueues_dryRun {signing : SigningContext} : spawnQueues signing true = ([], ⟨none, none⟩) := rfl

/-- What is spawned for the keys a run has: nothing without one, and otherwise a
worker for each. -/
theorem spawnQueues_live {signing : SigningContext} {keys : SigningKeys} (hsigners : signing.signers = keys.intoSigners) :
    spawnQueues signing false = match keys.auctioneer, keys.filler with
      | none, none => ([], ⟨none, none⟩)
      | none, some f => ([⟨0, f⟩], ⟨some 0, some 0⟩)
      | some a, none => ([⟨1, a⟩], ⟨some 0, none⟩)
      | some a, some f => ([⟨0, f⟩, ⟨1, a⟩], ⟨some 1, some 0⟩) := by
  unfold spawnQueues
  rw [hsigners]
  obtain ⟨_ | a, _ | f⟩ := keys
  · rfl
  · rfl
  · rfl
  · rfl

theorem spawnQueues_wired {signing : SigningContext} {keys : SigningKeys} {dryRun : Bool}
    (hsigners : signing.signers = keys.intoSigners) (hown : signing.ownAddresses = keys.ownAddresses)
    (hdistinct : ∀ a f, keys.auctioneer = some a → keys.filler = some f → a.address ≠ f.address) :
    Wired signing (spawnQueues signing dryRun).1 (spawnQueues signing dryRun).2 := by
  cases dryRun with
  | true => exact ⟨.nil, fun _ h => absurd h List.not_mem_nil, fun _ h => (by cases h), fun _ h => by cases h⟩
  | false =>
    have hfiller : ∀ f, keys.filler = some f → f.address ∈ signing.ownAddresses := fun f hf => by
      rw [hown]
      exact SigningKeys.mem_ownAddresses.2 (.inr ⟨f, hf, rfl⟩)
    have hauctioneer : ∀ a, keys.auctioneer = some a → a.address ∈ signing.ownAddresses := fun a ha => by
      rw [hown]
      exact SigningKeys.mem_ownAddresses.2 (.inl ⟨a, ha, rfl⟩)
    rw [spawnQueues_live hsigners]
    obtain ⟨_ | a, _ | f⟩ := keys
    · exact ⟨.nil, fun _ h => absurd h List.not_mem_nil, fun _ h => (by cases h), fun _ h => by cases h⟩
    · refine ⟨by simp, fun worker hworker => ?_, fun queue hqueue => ?_, fun queue hqueue => ?_⟩
      · rw [List.mem_singleton.1 hworker]
        exact hfiller f rfl
      · cases hqueue
        exact ⟨⟨0, f⟩, by rw [hsigners]; rfl, rfl⟩
      · cases hqueue
        exact ⟨⟨0, f⟩, by rw [hsigners]; rfl, rfl⟩
    · refine ⟨by simp, fun worker hworker => ?_, fun queue hqueue => ?_, fun queue hqueue => by cases hqueue⟩
      · rw [List.mem_singleton.1 hworker]
        exact hauctioneer a rfl
      · cases hqueue
        exact ⟨⟨1, a⟩, by rw [hsigners]; rfl, rfl⟩
    · refine ⟨?_, fun worker hworker => ?_, fun queue hqueue => ?_, fun queue hqueue => ?_⟩
      · simpa using (hdistinct a f rfl rfl).symm
      · rcases List.mem_cons.1 hworker with rfl | hworker
        · exact hfiller f rfl
        · rw [List.mem_singleton.1 hworker]
          exact hauctioneer a rfl
      · cases hqueue
        exact ⟨⟨1, a⟩, by rw [hsigners]; rfl, rfl⟩
      · cases hqueue
        exact ⟨⟨0, f⟩, by rw [hsigners]; rfl, rfl⟩

/-- **A key has one worker, and no account it signs for is acted on.** Whatever
keys a configuration is accepted with, each worker that is spawned signs for an
account of its own, a role's queue is worked by the role's key, and both roles
have one exactly where the bot is armed. And in every run of the auctioneer's
task that is started with them, an operation goes to a queue only when armed,
for a borrower that no worker signs for. -/
theorem one_worker_per_key (args : Args) (lib : ConfigLibrary)
    (databaseUrl rpcApiKey telegramBotToken fillerSecret auctioneerSecret : Option String) (config : ServiceConfig)
    (keys : SigningKeys) (nativeAssetContract : Except ChainError String) (signing : SigningContext) (xdr : XdrLibrary)
    (display : ChainError → String) (oraclePhase fullPhase ticks fuel : Nat)
    (hconfig : args.serviceWithSecrets lib databaseUrl rpcApiKey telegramBotToken = .ok config)
    (hkeys : args.signingKeys lib fillerSecret auctioneerSecret = .ok keys)
    (hsigning : SigningContext.fromConfig nativeAssetContract keys = .ok signing) :
    let workers := (spawnQueues signing config.dryRun).1
    let queues := (spawnQueues signing config.dryRun).2
    Wired signing workers queues ∧ (queues.filler.isSome ↔ config.dryRun = false) ∧
      (queues.auctioneer.isSome ↔ config.dryRun = false) ∧
      Keeps (fun _ _ _ => True) (fun _ call => ∀ submission, call = .acting (.enqueue submission) → config.dryRun = false ∧
          ∃ (pool account : String) (decision : Decision), pool ∈ config.pools.map (·.address) ∧
            decision.Orders xdr pool account submission.operation ∧ ∀ worker ∈ workers, worker.signer.address ≠ account)
        (fun _ _ => True) [] ((config.auctioneerTask signing xdr display oraclePhase fullPhase).auctioneerLoop ticks fuel) := by
  intro workers queues
  obtain ⟨hsigners, hown⟩ := SigningContext.fromConfig_ok hsigning
  obtain ⟨hdistinct, harmed⟩ := Args.signingKeys_ok hkeys
  have hdry : config.dryRun = args.dryRun := (Args.serviceWithSecrets_ok hconfig).2.dryRun
  have hwired : Wired signing workers queues := spawnQueues_wired hsigners hown hdistinct
  have hqueues : ((spawnQueues signing config.dryRun).2.filler.isSome ↔ config.dryRun = false) ∧
      ((spawnQueues signing config.dryRun).2.auctioneer.isSome ↔ config.dryRun = false) := by
    cases hlive : config.dryRun with
    | true => simp [spawnQueues_dryRun]
    | false =>
      obtain ⟨f, hf⟩ := Option.isSome_iff_exists.1 (harmed (hdry.symm.trans hlive))
      rw [spawnQueues_live hsigners, hf]
      cases keys.auctioneer <;> simp
  refine ⟨hwired, hqueues.1, hqueues.2, ?_⟩
  have hgrounded := @AuctioneerTask.carried_grounded (config.auctioneerTask signing xdr display oraclePhase fullPhase) fuel
  refine (hgrounded.loop ⟨rfl, fun h => by cases h⟩).mono (fun l call hcall submission heq => ?_) fun _ _ => id
  subst heq
  obtain ⟨harmed, _, _, _, pool, account, decision, -, hpool, hdecided, horders, -⟩ := hcall
  refine ⟨harmed.live, pool, account, decision, hpool, horders, fun worker hworker hsame => ?_⟩
  have howned := hwired.own worker hworker
  rw [hsame] at howned
  have hother := hdecided.1
  rw [AuctioneerConfig.isOwnAccount, Bool.or_eq_false_iff] at hother
  rw [← Std.ExtTreeSet.contains_iff_mem] at howned
  rw [show (config.auctioneerTask signing xdr display oraclePhase fullPhase).config.ownAddresses = signing.ownAddresses from rfl,
    howned] at hother
  cases hother.2

/-- The sample settings, armed. -/
def liveArgs : Args := { sampleArgs with dryRun := false }

theorem liveArgs_configures : liveArgs.Configures sampleConfigLibrary (some "postgres://localhost/bot") none none :=
  ⟨sampleArgs_configures.telegram, ⟨.inr rfl, rfl, fun _ h => (by cases h), rfl⟩, rfl, sampleArgs_configures.pools,
    sampleArgs_configures.thresholds, sampleArgs_configures.reserve⟩

/-- Two keys, two workers. -/
theorem one_worker_per_key_live : ∃ (config : ServiceConfig) (signing : SigningContext),
    liveArgs.serviceWithSecrets sampleConfigLibrary (some "postgres://localhost/bot") none none = .ok config ∧
      SigningContext.fromConfig (.ok "CXLM") ⟨some ⟨"GA"⟩, some ⟨"GF"⟩⟩ = .ok signing ∧
      Wired signing (spawnQueues signing config.dryRun).1 (spawnQueues signing config.dryRun).2 := by
  obtain ⟨config, hconfig⟩ := liveArgs_configures.ok
  have hkeys : liveArgs.signingKeys sampleConfigLibrary (some "GF") (some "GA") = .ok ⟨some ⟨"GA"⟩, some ⟨"GF"⟩⟩ := by
    rfl
  exact ⟨config, _, hconfig, rfl, (one_worker_per_key liveArgs sampleConfigLibrary (some "postgres://localhost/bot") none none
    (some "GF") (some "GA") config _ (.ok "CXLM") _ ⟨.ok, fun contract function _ => contract ++ function⟩
    (fun _ => "") 0 0 1 1 hconfig hkeys rfl).1⟩

end BlendLiquidator
