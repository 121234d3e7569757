/-
What the configuration accepts.

The pools file is taken as a whole or refused at its first bad table, and for
the first thing wrong with it. A configuration that is accepted is one the bot
can run on: its thresholds are in order, so that whoever it would liquidate is
one its own full scan flags, and no pool's floor is at the contract's.
-/
import BlendLiquidator.Config
import BlendLiquidator.FixedFacts

namespace BlendLiquidator

open DecimalDigits IntDiv Results

/-! ## One pool of the file -/

/-- What the file calls an objective. -/
def FillObjective.name : FillObjective → String
  | .freeFill => "free-fill"
  | .earliestProfitable => "earliest-profitable"

/-- The pool a table of the file gives. -/
structure RawPool.Gives (raw : RawPool) (pool : PoolConfig) : Prop where
  amount : parseI128 raw.minPrimaryCollateral = some pool.minPrimaryCollateral
  nonneg : 0 ≤ pool.minPrimaryCollateral
  health : CONTRACT_MIN_HEALTH < raw.minHealthFactor.get
  objective : raw.fillObjective = some pool.fillObjective.name ∨ raw.fillObjective = none ∧ pool.fillObjective = .freeFill
  kept : pool = {
    address := raw.address
    primaryAsset := raw.primaryAsset
    minPrimaryCollateral := pool.minPrimaryCollateral
    minHealthFactor := raw.minHealthFactor.get
    defaultProfitBps := raw.defaultProfitBps
    forceFill := raw.forceFill
    fillObjective := pool.fillObjective
    supportedBid := raw.supportedBid
    supportedLot := raw.supportedLot
    profits := raw.profits }

/-- Why a table is refused: the first of its fields that is wrong. -/
inductive RawPool.Refused (raw : RawPool) : LiquidatorError → Prop
  | amount : parseI128 raw.minPrimaryCollateral = none →
    Refused raw (.config ("min_primary_collateral: `" ++ raw.minPrimaryCollateral ++ "` is not an integer amount"))
  | negative {amount : Int} : parseI128 raw.minPrimaryCollateral = some amount → amount < 0 →
    Refused raw (.config "pools file: min_primary_collateral must not be negative")
  | health {amount : Int} : parseI128 raw.minPrimaryCollateral = some amount → 0 ≤ amount →
    raw.minHealthFactor.get ≤ CONTRACT_MIN_HEALTH →
    Refused raw (.config ("pools file: pool " ++ raw.address ++ ": min_health_factor is at or under the contract's own " ++
      "post-submit minimum (1.00001), so the filler would plan fills the contract refuses as InvalidHf"))
  | objective {amount : Int} {name : String} : parseI128 raw.minPrimaryCollateral = some amount → 0 ≤ amount →
    CONTRACT_MIN_HEALTH < raw.minHealthFactor.get → raw.fillObjective = some name →
    (¬∃ objective : FillObjective, name = objective.name) →
    Refused raw (.config ("pools file: pool " ++ raw.address ++ ": `" ++ name ++ "` is not a fill_objective: it is " ++
      "`free-fill` (the default, which waits for the ledger the bid is gone) or `earliest-profitable` (which " ++
      "fills as soon as the lot covers the bid plus the pool's margin)"))

section Pools

variable {raw : RawPool} {pool : PoolConfig} {address : String} {objective : FillObjective} {name : Option String}
  {error : LiquidatorError}

theorem FillObjective.named_ok_iff : FillObjective.named address name = .ok objective ↔
    name = some objective.name ∨ name = none ∧ objective = .freeFill := by
  cases name with
  | none => simp [named, eq_comm]
  | some name =>
    unfold named
    dsimp only
    split
    · next hfree => cases objective <;> simp [FillObjective.name, hfree]
    · next hfree =>
      split
      · next hearliest => cases objective <;> simp [FillObjective.name, hearliest]
      · next hearliest => cases objective <;> simp [FillObjective.name, hfree, hearliest]

theorem FillObjective.eq_name_iff {text : String} : (∃ objective : FillObjective, text = objective.name) ↔
    text = "free-fill" ∨ text = "earliest-profitable" := by
  constructor
  · rintro ⟨_ | _, h⟩
    · exact .inl h
    · exact .inr h
  · rintro (h | h)
    · exact ⟨.freeFill, h⟩
    · exact ⟨.earliestProfitable, h⟩

theorem FillObjective.named_error_iff : FillObjective.named address name = .error error ↔
    ∃ text, name = some text ∧ (¬∃ objective : FillObjective, text = objective.name) ∧
      error = .config ("pools file: pool " ++ address ++ ": `" ++ text ++ "` is not a fill_objective: it is " ++
        "`free-fill` (the default, which waits for the ledger the bid is gone) or `earliest-profitable` (which " ++
        "fills as soon as the lot covers the bid plus the pool's margin)") := by
  cases name with
  | none => simp [named]
  | some text =>
    simp only [eq_name_iff, Option.some.injEq, exists_eq_left']
    unfold named
    dsimp only
    split
    · next hfree => simp [hfree]
    · next hfree =>
      split
      · next hearliest => simp [hearliest]
      · next hearliest => simp [hfree, hearliest, eq_comm]

theorem amountFromStr_ok_iff {text field : String} {amount : Int} :
    amountFromStr text field = .ok amount ↔ parseI128 text = some amount := by
  unfold amountFromStr
  split <;> simp_all

theorem amountFromStr_error_iff {text field refusal : String} : amountFromStr text field = .error refusal ↔
    parseI128 text = none ∧ field ++ ": `" ++ text ++ "` is not an integer amount" = refusal := by
  unfold amountFromStr
  split <;> simp_all

theorem RawPool.checked_ok_iff : raw.checked = .ok pool ↔ raw.Gives pool := by
  unfold checked
  constructor
  · intro h
    obtain ⟨amount, hamount, h⟩ := bind_ok_iff.1 h
    rw [mapError_ok_iff, amountFromStr_ok_iff] at hamount
    by_cases hnegative : amount < 0
    · rw [if_pos hnegative] at h
      cases h
    rw [if_neg hnegative] at h
    by_cases hhealth : raw.minHealthFactor.get ≤ CONTRACT_MIN_HEALTH
    · rw [if_pos hhealth] at h
      cases h
    rw [if_neg hhealth] at h
    obtain ⟨objective, hobjective, h⟩ := bind_ok_iff.1 h
    obtain rfl := pure_ok_iff.1 h
    exact ⟨hamount, not_lt.1 hnegative, not_le.1 hhealth, FillObjective.named_ok_iff.1 hobjective, rfl⟩
  · rintro ⟨hamount, hnonneg, hhealth, hobjective, hkept⟩
    rw [bind_ok_iff]
    refine ⟨_, mapError_ok_iff.2 (amountFromStr_ok_iff.2 hamount), ?_⟩
    rw [if_neg (not_lt.2 hnonneg), if_neg (not_le.2 hhealth)]
    rw [FillObjective.named_ok_iff.2 hobjective]
    exact congrArg Except.ok hkept.symm

theorem RawPool.checked_error_iff : raw.checked = .error error ↔ raw.Refused error := by
  unfold checked
  constructor
  · intro h
    rcases bind_error_iff.1 h with h | ⟨amount, hamount, h⟩
    · obtain ⟨refusal, hrefusal, rfl⟩ := mapError_error_iff.1 h
      obtain ⟨hnone, rfl⟩ := amountFromStr_error_iff.1 hrefusal
      exact .amount hnone
    rw [mapError_ok_iff, amountFromStr_ok_iff] at hamount
    by_cases hnegative : amount < 0
    · rw [if_pos hnegative] at h
      cases h
      exact .negative hamount hnegative
    rw [if_neg hnegative] at h
    by_cases hhealth : raw.minHealthFactor.get ≤ CONTRACT_MIN_HEALTH
    · rw [if_pos hhealth] at h
      cases h
      exact .health hamount (not_lt.1 hnegative) hhealth
    rw [if_neg hhealth] at h
    rcases bind_error_iff.1 h with h | ⟨objective, -, h⟩
    · obtain ⟨name, hname, hunknown, rfl⟩ := FillObjective.named_error_iff.1 h
      exact .objective hamount (not_lt.1 hnegative) (not_le.1 hhealth) hname hunknown
    · cases h
  · rintro (hnone | ⟨hamount, hnegative⟩ | ⟨hamount, hnonneg, hhealth⟩ | ⟨hamount, hnonneg, hhealth, hname, hunknown⟩)
    · rw [bind_error_iff]
      exact .inl (mapError_error_iff.2 ⟨_, amountFromStr_error_iff.2 ⟨hnone, rfl⟩, rfl⟩)
    all_goals
      rw [bind_error_iff]
      refine .inr ⟨_, mapError_ok_iff.2 (amountFromStr_ok_iff.2 hamount), ?_⟩
    · rw [if_pos hnegative]
      rfl
    · rw [if_neg (not_lt.2 hnonneg), if_pos hhealth]
      rfl
    · rw [if_neg (not_lt.2 hnonneg), if_neg (not_le.2 hhealth), FillObjective.named_error_iff.2 ⟨_, hname, hunknown, rfl⟩]
      rfl

end Pools

/-! ## The whole file -/

section File

variable {raw : List RawPool} {seen seen' : BTreeSet String} {pools pools' : List PoolConfig} {error : LiquidatorError}

theorem addPool_ok_iff {table : RawPool} : addPool (seen, pools) table = .ok (seen', pools') ↔
    table.address ∉ seen ∧ seen' = seen.insert table.address ∧ ∃ pool, table.Gives pool ∧ pools' = pools ++ [pool] := by
  unfold addPool
  dsimp only
  by_cases hseen : table.address ∈ seen
  · rw [if_pos hseen]
    simp only [hseen, not_true_eq_false, false_and, iff_false]
    intro h
    cases h
  · rw [if_neg hseen]
    simp only [hseen, not_false_eq_true, true_and, ← RawPool.checked_ok_iff]
    constructor
    · intro h
      obtain ⟨pool, hpool, h⟩ := bind_ok_iff.1 h
      cases pure_ok_iff.1 h
      exact ⟨rfl, pool, hpool, rfl⟩
    · rintro ⟨rfl, pool, hpool, rfl⟩
      exact bind_ok_iff.2 ⟨pool, hpool, rfl⟩

theorem addPool_error_iff {table : RawPool} : addPool (seen, pools) table = .error error ↔
    table.address ∈ seen ∧ error = .config ("pools file: duplicate pool " ++ table.address) ∨
      table.address ∉ seen ∧ table.Refused error := by
  unfold addPool
  dsimp only
  by_cases hseen : table.address ∈ seen
  · rw [if_pos hseen]
    simp only [hseen, not_true_eq_false, true_and, false_and, or_false]
    constructor
    · intro h
      cases h
      rfl
    · rintro rfl
      rfl
  · rw [if_neg hseen]
    simp only [hseen, not_false_eq_true, true_and, false_and, false_or, ← RawPool.checked_error_iff]
    constructor
    · intro h
      rcases bind_error_iff.1 h with h | ⟨_, _, h⟩
      · exact h
      · cases h
    · exact fun h => bind_error_iff.2 (.inl h)

/-- The addresses seen are those of the tables taken. -/
theorem addPools_seen (h : raw.foldlM addPool (seen, pools) = .ok (seen', pools')) (address : String) :
    address ∈ seen' ↔ address ∈ seen ∨ address ∈ raw.map RawPool.address := by
  induction raw generalizing seen pools with
  | nil =>
    cases pure_ok_iff.1 h
    simp
  | cons table raw ih =>
    rw [List.foldlM_cons] at h
    obtain ⟨⟨seen₁, pools₁⟩, htable, hraw⟩ := bind_ok_iff.1 h
    obtain ⟨-, rfl, -⟩ := addPool_ok_iff.1 htable
    rw [ih hraw, TreeMaps.mem_set_insert, List.map_cons, List.mem_cons]
    tauto

/-- The loop takes tables of distinct new addresses, each of which gives its pool. -/
theorem addPools_ok_iff : (∃ seen', raw.foldlM addPool (seen, pools) = .ok (seen', pools')) ↔
    (∀ address ∈ raw.map RawPool.address, address ∉ seen) ∧ (raw.map RawPool.address).Nodup ∧
      ∃ more, pools' = pools ++ more ∧ List.Forall₂ RawPool.Gives raw more := by
  induction raw generalizing seen pools with
  | nil =>
    simp only [List.foldlM_nil, pure_ok_iff, List.map_nil, List.forall₂_nil_left_iff, List.nodup_nil]
    constructor
    · rintro ⟨_, ⟨⟩⟩
      simp
    · rintro ⟨-, -, _, rfl, rfl⟩
      exact ⟨seen, by rw [List.append_nil]⟩
  | cons table raw ih =>
    simp only [List.foldlM_cons, bind_ok_iff, List.map_cons, List.forall_mem_cons, List.nodup_cons]
    constructor
    · rintro ⟨seen', ⟨seen₁, pools₁⟩, htable, hraw⟩
      obtain ⟨hnew, rfl, pool, hpool, rfl⟩ := addPool_ok_iff.1 htable
      obtain ⟨hfresh, hnodup, more, rfl, hmore⟩ := ih.1 ⟨_, hraw⟩
      refine ⟨⟨hnew, fun address haddress hseen => ?_⟩, ⟨fun hagain => ?_, hnodup⟩, pool :: more, by simp, .cons hpool hmore⟩
      · exact hfresh address haddress (TreeMaps.mem_set_insert.2 (.inr hseen))
      · exact hfresh _ hagain (TreeMaps.mem_set_insert.2 (.inl rfl))
    · rintro ⟨⟨hnew, hfresh⟩, ⟨honce, hnodup⟩, _, rfl, hmore⟩
      obtain _ | ⟨hpool, hmore⟩ := hmore
      rename_i pool more
      have hrest : ∀ address ∈ raw.map RawPool.address, address ∉ seen.insert table.address := by
        intro address haddress hseen
        rcases TreeMaps.mem_set_insert.1 hseen with rfl | hseen
        · exact honce haddress
        · exact hfresh address haddress hseen
      obtain ⟨seen', hraw⟩ := ih.2 ⟨hrest, hnodup, more, (List.append_cons pools pool more), hmore⟩
      exact ⟨seen', _, addPool_ok_iff.2 ⟨hnew, rfl, pool, hpool, rfl⟩, hraw⟩

theorem addPools_start_ok_iff {raw : List RawPool} {pools : List PoolConfig} :
    (∃ seen, raw.foldlM addPool (∅, []) = .ok (seen, pools)) ↔
      (raw.map RawPool.address).Nodup ∧ List.Forall₂ RawPool.Gives raw pools := by
  rw [addPools_ok_iff]
  simp

theorem forall₂_mem_right {raw : List RawPool} {pools : List PoolConfig} {pool : PoolConfig}
    (h : List.Forall₂ RawPool.Gives raw pools) (hpool : pool ∈ pools) : ∃ table, RawPool.Gives table pool := by
  induction h with
  | nil => cases hpool
  | cons hgives _ ih =>
    rcases List.mem_cons.1 hpool with rfl | hpool
    · exact ⟨_, hgives⟩
    · exact ih hpool

theorem parsePools_tables {lib : ConfigLibrary} {text : String} {raw : List RawPool} (htoml : lib.toml text = .ok raw)
    (hraw : raw ≠ []) : lib.parsePools text = Prod.snd <$> raw.foldlM addPool (∅, []) := by
  unfold ConfigLibrary.parsePools
  rw [htoml]
  simp [Except.mapError, bind, Except.bind, hraw, Functor.map, Except.map, pure, Except.pure]

theorem parsePools_empty {lib : ConfigLibrary} {text : String} (htoml : lib.toml text = .ok []) :
    lib.parsePools text = .error (.config "pools file: at least one pool (a [[pools]] table) is required") := by
  unfold ConfigLibrary.parsePools
  rw [htoml]
  rfl

theorem parsePools_error {lib : ConfigLibrary} {text refusal : String} (htoml : lib.toml text = .error refusal) :
    lib.parsePools text = .error (.config ("pools file: " ++ refusal)) := by
  unfold ConfigLibrary.parsePools
  rw [htoml]
  rfl

/-- The loop fails at its first table that is not in order. -/
theorem addPools_start_error_iff {raw : List RawPool} {error : LiquidatorError} :
    raw.foldlM addPool (∅, []) = .error error ↔
      ∃ before table after, raw = before ++ table :: after ∧ (before.map RawPool.address).Nodup ∧
        (∃ pools, List.Forall₂ RawPool.Gives before pools) ∧
        (table.address ∈ before.map RawPool.address ∧
            error = .config ("pools file: duplicate pool " ++ table.address) ∨
          table.address ∉ before.map RawPool.address ∧ table.Refused error) := by
  rw [foldlM_error_iff]
  constructor
  · rintro ⟨before, table, after, ⟨seen, pools⟩, rfl, hbefore, htable⟩
    obtain ⟨hnodup, hgives⟩ := addPools_start_ok_iff.1 ⟨seen, hbefore⟩
    have hseen := addPools_seen hbefore table.address
    simp only [Std.ExtTreeSet.not_mem_empty, false_or] at hseen
    rw [addPool_error_iff, hseen] at htable
    exact ⟨before, table, after, rfl, hnodup, ⟨pools, hgives⟩, htable⟩
  · rintro ⟨before, table, after, rfl, hnodup, ⟨pools, hgives⟩, htable⟩
    obtain ⟨seen, hbefore⟩ := addPools_start_ok_iff.2 ⟨hnodup, hgives⟩
    have hseen := addPools_seen hbefore table.address
    simp only [Std.ExtTreeSet.not_mem_empty, false_or] at hseen
    refine ⟨before, table, after, (seen, pools), rfl, hbefore, ?_⟩
    rw [addPool_error_iff, hseen]
    exact htable

theorem parsePools_ok_iff {lib : ConfigLibrary} {text : String} {pools : List PoolConfig} :
    lib.parsePools text = .ok pools ↔ ∃ raw, lib.toml text = .ok raw ∧ raw ≠ [] ∧
      (raw.map RawPool.address).Nodup ∧ List.Forall₂ RawPool.Gives raw pools := by
  cases htoml : lib.toml text with
  | error refusal => simp [parsePools_error htoml]
  | ok raw =>
    by_cases hraw : raw = []
    · subst hraw
      simp [parsePools_empty htoml]
    simp only [parsePools_tables htoml hraw, map_ok_iff, Except.ok.injEq, exists_eq_left', hraw, ne_eq, not_false_eq_true,
      true_and]
    rw [← addPools_start_ok_iff]
    constructor
    · rintro ⟨⟨seen, _⟩, h, rfl⟩
      exact ⟨seen, h⟩
    · rintro ⟨seen, h⟩
      exact ⟨_, h, rfl⟩

/-- The first thing wrong with a pools file. -/
inductive ConfigLibrary.RefusesPools (lib : ConfigLibrary) (text : String) : LiquidatorError → Prop
  | toml {refusal : String} : lib.toml text = .error refusal → RefusesPools lib text (.config ("pools file: " ++ refusal))
  | empty : lib.toml text = .ok [] →
    RefusesPools lib text (.config "pools file: at least one pool (a [[pools]] table) is required")
  | duplicate {before after : List RawPool} {table : RawPool} {pools : List PoolConfig} :
    lib.toml text = .ok (before ++ table :: after) → (before.map RawPool.address).Nodup →
    List.Forall₂ RawPool.Gives before pools → table.address ∈ before.map RawPool.address →
    RefusesPools lib text (.config ("pools file: duplicate pool " ++ table.address))
  | table {before after : List RawPool} {table : RawPool} {pools : List PoolConfig} {error : LiquidatorError} :
    lib.toml text = .ok (before ++ table :: after) → (before.map RawPool.address).Nodup →
    List.Forall₂ RawPool.Gives before pools → table.address ∉ before.map RawPool.address → table.Refused error →
    RefusesPools lib text error

theorem parsePools_error_iff {lib : ConfigLibrary} {text : String} {error : LiquidatorError} :
    lib.parsePools text = .error error ↔ lib.RefusesPools text error := by
  constructor
  · intro h
    cases htoml : lib.toml text with
    | error refusal =>
      rw [parsePools_error htoml] at h
      cases h
      exact .toml htoml
    | ok raw =>
      by_cases hraw : raw = []
      · subst hraw
        rw [parsePools_empty htoml] at h
        cases h
        exact .empty htoml
      rw [parsePools_tables htoml hraw, map_error_iff, addPools_start_error_iff] at h
      obtain ⟨before, table, after, rfl, hnodup, ⟨pools, hgives⟩, ⟨hagain, rfl⟩ | ⟨hnew, hrefused⟩⟩ := h
      · exact .duplicate htoml hnodup hgives hagain
      · exact .table htoml hnodup hgives hnew hrefused
  · rintro (htoml | htoml | ⟨htoml, hnodup, hgives, hagain⟩ | ⟨htoml, hnodup, hgives, hnew, hrefused⟩)
    · exact parsePools_error htoml
    · exact parsePools_empty htoml
    · rw [parsePools_tables htoml (by simp), map_error_iff, addPools_start_error_iff]
      exact ⟨_, _, _, rfl, hnodup, ⟨_, hgives⟩, .inl ⟨hagain, rfl⟩⟩
    · rw [parsePools_tables htoml (by simp), map_error_iff, addPools_start_error_iff]
      exact ⟨_, _, _, rfl, hnodup, ⟨_, hgives⟩, .inr ⟨hnew, hrefused⟩⟩

end File

/-- **The pools file is taken whole, or refused at its first bad table.** It is
accepted exactly where it names at least one pool, no pool twice, and every
table gives its pool, and these are the pools, in the file's order. Where it is
refused, every table before the one the refusal is about was in order. -/
theorem pools_file_exactly (lib : ConfigLibrary) (text : String) :
    (∀ pools, lib.parsePools text = .ok pools ↔ ∃ raw, lib.toml text = .ok raw ∧ raw ≠ [] ∧
      (raw.map RawPool.address).Nodup ∧ List.Forall₂ RawPool.Gives raw pools) ∧
    (∀ error, lib.parsePools text = .error error ↔ lib.RefusesPools text error) :=
  ⟨fun _ => parsePools_ok_iff, fun _ => parsePools_error_iff⟩

/-! ## The service's configuration -/

section Knobs

variable {text : String} {knob : Decimal7}

/-- A written decimal is not negative. -/
theorem Decimal7.nonneg_of_fromStr (h : Decimal7.fromStr text = .ok knob) : 0 ≤ knob.get := by
  obtain ⟨whole, fraction, -, hscaled, -⟩ := Decimal7.fromStr_ok_iff.1 h
  rw [hscaled]
  exact Int.natCast_nonneg _

theorem boundedKnob_ok_iff {accepts : Int → Bool} {refusal : String} :
    boundedKnob accepts refusal text = .ok knob ↔ Decimal7.fromStr text = .ok knob ∧ accepts knob.get = true := by
  unfold boundedKnob
  rw [bind_ok_iff]
  constructor
  · rintro ⟨value, hvalue, h⟩
    split at h
    · next haccepts =>
      obtain rfl := pure_ok_iff.1 h
      exact ⟨hvalue, haccepts⟩
    · cases h
  · rintro ⟨hvalue, haccepts⟩
    exact ⟨knob, hvalue, by rw [if_pos haccepts]; rfl⟩

theorem Parses.nonneg (h : Parses Decimal7.fromStr knob) : 0 ≤ knob.get := by
  obtain ⟨text, htext⟩ := h
  exact Decimal7.nonneg_of_fromStr htext

theorem Parses.target (h : Parses BlendLiquidator.targetHealthFactor knob) :
    TARGET_HF_MIN ≤ knob.get ∧ knob.get < TARGET_HF_MAX := by
  obtain ⟨text, htext⟩ := h
  have haccepts := (boundedKnob_ok_iff.1 htext).2
  simp only [Bool.not_eq_true', Bool.or_eq_false_iff, decide_eq_false_iff_not] at haccepts
  omega

theorem Parses.multiplier (h : Parses BlendLiquidator.healthMultiplier knob) : SCALAR_7 ≤ knob.get := by
  obtain ⟨text, htext⟩ := h
  have haccepts := (boundedKnob_ok_iff.1 htext).2
  simp only [Bool.not_eq_true', decide_eq_false_iff_not] at haccepts
  omega

end Knobs

section Service

variable {args : Args} {lib : ConfigLibrary} {databaseUrl rpcApiKey telegramBotToken : Option String}
  {config : ServiceConfig}

/-- Both of two settings are there, or neither. -/
def Paired (first second : Option String) : Prop := (nonEmpty first).isSome = (nonEmpty second).isSome

theorem bothOrNeither_ok_iff {α : Type} {first second : String} {a b : Option String} {both : String → String → α} :
    (∃ found, bothOrNeither first second (nonEmpty a) (nonEmpty b) both = .ok found) ↔ Paired a b := by
  unfold Paired
  cases nonEmpty a <;> cases nonEmpty b <;> simp [bothOrNeither]

/-- The pools come from the one source that is named. -/
def Args.PoolsFrom (args : Args) (lib : ConfigLibrary) (text : String) : Prop :=
  args.poolsFile = none ∧ args.poolsToml = some text ∨
    ∃ path, args.poolsFile = some path ∧ args.poolsToml = none ∧ lib.readToString path = .ok text

theorem Args.pools_ok_iff {pools : List PoolConfig} :
    args.pools lib = .ok pools ↔ ∃ text, args.PoolsFrom lib text ∧ lib.parsePools text = .ok pools := by
  unfold Args.pools PoolsFrom
  cases args.poolsFile <;> cases args.poolsToml <;> simp [bind_ok_iff]

/-- What names a chain to run on. -/
structure Args.NamesChain (args : Args) (lib : ConfigLibrary) (rpcApiKey : Option String) : Prop where
  network : args.networkPassphrase.isSome ∨ args.network.isSome
  rpcUrl : args.rpcUrl.isSome
  header : ∀ header, nonEmpty args.rpcApiKeyHeader = some header → lib.headerName header = true
  paired : Paired args.rpcApiKeyHeader rpcApiKey

theorem required_ok_iff {α : Type} {value : Option α} {refusal : String} {found : α} :
    required value refusal = .ok found ↔ value = some found := by
  cases value <;> simp [required]

theorem required_answers_iff {α : Type} {value : Option α} {refusal : String} :
    (∃ found, required value refusal = .ok found) ↔ ∃ found, value = some found := by
  simp only [required_ok_iff]

theorem Args.chainWithSecret_ok_iff :
    (∃ chain, args.chainWithSecret lib rpcApiKey = .ok chain) ↔ args.NamesChain lib rpcApiKey := by
  unfold chainWithSecret
  constructor
  · rintro ⟨chain, h⟩
    obtain ⟨passphrase, hpassphrase, h⟩ := bind_ok_iff.1 h
    obtain ⟨url, hurl, h⟩ := bind_ok_iff.1 h
    rw [required_ok_iff] at hpassphrase hurl
    dsimp only at h
    by_cases hheader : ((nonEmpty args.rpcApiKeyHeader).any fun name => !lib.headerName name) = true
    · rw [if_pos hheader] at h
      cases h
    rw [if_neg hheader] at h
    obtain ⟨key, hkey, -⟩ := bind_ok_iff.1 h
    refine ⟨?_, by rw [hurl]; rfl, fun header hsome => ?_, bothOrNeither_ok_iff.1 ⟨key, hkey⟩⟩
    · revert hpassphrase
      cases args.networkPassphrase <;> cases args.network <;> simp
    · simpa [hsome] using hheader
  · rintro ⟨hnetwork, hurl, hheader, hpaired⟩
    have hpassphrase : ∃ passphrase, args.networkPassphrase.or (args.network.map NetworkName.passphrase) = some passphrase := by
      revert hnetwork
      cases args.networkPassphrase <;> cases args.network <;> simp
    refine bind_answers (required_answers_iff.2 hpassphrase) fun passphrase _ => ?_
    refine bind_answers (required_answers_iff.2 (Option.isSome_iff_exists.1 hurl)) fun url _ => ?_
    dsimp only
    rw [if_neg]
    · exact bind_answers (bothOrNeither_ok_iff.2 hpaired) fun key _ => ⟨_, rfl⟩
    · cases hsome : nonEmpty args.rpcApiKeyHeader with
      | none => simp
      | some header => simp [hheader header hsome]

/-- What the command line and the environment have to say for the service to
be configured. -/
structure Args.Configures (args : Args) (lib : ConfigLibrary) (databaseUrl rpcApiKey telegramBotToken : Option String) :
    Prop where
  telegram : Paired args.telegramChatId telegramBotToken
  chain : args.NamesChain lib rpcApiKey
  database : databaseUrl.isSome
  pools : ∃ text pools, args.PoolsFrom lib text ∧ lib.parsePools text = .ok pools
  thresholds : args.liqHfThreshold.get < args.scanHfThreshold.get
  reserve : 0 ≤ args.xlmFeeReserve.get ∧ args.xlmFeeReserve.get ≤ u64Max

/-- What an accepted configuration keeps of its knobs. -/
structure ServiceConfig.KeepsKnobs (config : ServiceConfig) (args : Args) (lib : ConfigLibrary) : Prop where
  pools : args.pools lib = .ok config.pools
  scanHealthFactor : config.scanHealthFactor = args.scanHfThreshold.get
  liquidationHealthFactor : config.liquidationHealthFactor = args.liqHfThreshold.get
  targetHealthFactor : config.targetHealthFactor = args.targetHf.get
  hfSafetyMultiplier : config.hfSafetyMultiplier = args.hfSafetyMultiplier.get
  xlmFeeReserve : (config.xlmFeeReserve : Int) = args.xlmFeeReserve.get
  highFeeProfitThreshold : config.highFeeProfitThreshold = args.highFeeProfitThreshold.get
  dryRun : config.dryRun = args.dryRun

theorem Args.serviceWithSecrets_ok
    (h : args.serviceWithSecrets lib databaseUrl rpcApiKey telegramBotToken = .ok config) :
    args.Configures lib databaseUrl rpcApiKey telegramBotToken ∧ config.KeepsKnobs args lib := by
  unfold serviceWithSecrets at h
  obtain ⟨telegram, htelegram, h⟩ := bind_ok_iff.1 h
  obtain ⟨chain, hchain, h⟩ := bind_ok_iff.1 h
  obtain ⟨url, hurl, h⟩ := bind_ok_iff.1 h
  obtain ⟨pools, hpools, h⟩ := bind_ok_iff.1 h
  by_cases hthresholds : args.liqHfThreshold.get ≥ args.scanHfThreshold.get
  · rw [if_pos hthresholds] at h
    cases h
  rw [if_neg hthresholds] at h
  by_cases hreserve : args.xlmFeeReserve.get < 0 ∨ (u64Max : Int) < args.xlmFeeReserve.get
  · rw [if_pos hreserve] at h
    cases h
  rw [if_neg hreserve] at h
  obtain rfl := pure_ok_iff.1 h
  obtain ⟨text, htext⟩ := Args.pools_ok_iff.1 hpools
  refine ⟨⟨bothOrNeither_ok_iff.1 ⟨_, htelegram⟩, Args.chainWithSecret_ok_iff.1 ⟨_, hchain⟩, ?_,
    ⟨text, pools, htext⟩, not_le.1 hthresholds, by omega⟩, ⟨hpools, rfl, rfl, rfl, rfl, ?_, rfl, rfl⟩⟩
  · rw [required_ok_iff.1 hurl]
    rfl
  · exact Int.toNat_of_nonneg (by omega)

theorem Args.Configures.ok (h : args.Configures lib databaseUrl rpcApiKey telegramBotToken) :
    ∃ config, args.serviceWithSecrets lib databaseUrl rpcApiKey telegramBotToken = .ok config := by
  obtain ⟨text, pools, htext⟩ := h.pools
  unfold serviceWithSecrets
  refine bind_answers (bothOrNeither_ok_iff.2 h.telegram) fun telegram _ => ?_
  refine bind_answers (Args.chainWithSecret_ok_iff.2 h.chain) fun chain _ => ?_
  refine bind_answers (required_answers_iff.2 (Option.isSome_iff_exists.1 h.database)) fun url _ => ?_
  refine bind_answers ⟨pools, Args.pools_ok_iff.2 ⟨text, htext⟩⟩ fun pools _ => ?_
  have hreserve := h.reserve
  rw [if_neg (not_le.2 h.thresholds)]
  dsimp only
  rw [if_neg (by omega)]
  exact ⟨_, rfl⟩

end Service

/-- A configuration the bot can run on: pools it can tell apart, floors above
the contract's own, a scan that reaches whoever it would liquidate, and a target
the contract accepts. -/
structure ServiceConfig.Runnable (config : ServiceConfig) : Prop where
  pools : config.pools ≠ []
  distinct : (config.pools.map PoolConfig.address).Nodup
  minPrimaryCollateral : ∀ pool ∈ config.pools, 0 ≤ pool.minPrimaryCollateral
  floor : ∀ pool ∈ config.pools, ∀ floor, healthFloor pool.minHealthFactor config.hfSafetyMultiplier = .ok floor →
    CONTRACT_MIN_HEALTH < pool.minHealthFactor ∧ pool.minHealthFactor ≤ floor
  liquidation : 0 ≤ config.liquidationHealthFactor ∧ config.liquidationHealthFactor < config.scanHealthFactor
  target : TARGET_HF_MIN ≤ config.targetHealthFactor ∧ config.targetHealthFactor < TARGET_HF_MAX
  reserve : config.xlmFeeReserve ≤ u64Max
  profit : 0 ≤ config.highFeeProfitThreshold

theorem healthFloor_ge {minHealthFactor multiplier floor : Int} (hmin : 0 ≤ minHealthFactor) (hone : SCALAR_7 ≤ multiplier)
    (h : healthFloor minHealthFactor multiplier = .ok floor) : minHealthFactor ≤ floor := by
  rw [healthFloor, mulCeil_eq SCALAR_7_pos] at h
  obtain rfl := narrow_ok h
  have hle : minHealthFactor * SCALAR_7 ≤ ceilDiv (minHealthFactor * multiplier) SCALAR_7 * SCALAR_7 :=
    (mul_le_mul_of_nonneg_left hone hmin).trans (le_ceilDiv_mul SCALAR_7_pos)
  exact le_of_mul_le_mul_right hle SCALAR_7_pos

theorem forall₂_gives_addresses {raw : List RawPool} {pools : List PoolConfig} (h : List.Forall₂ RawPool.Gives raw pools) :
    pools.map PoolConfig.address = raw.map RawPool.address := by
  induction h with
  | nil => rfl
  | cons hgives _ ih => rw [List.map_cons, List.map_cons, ih, hgives.kept]

/-- What a pools file that is accepted promises of its pools. -/
theorem parsePools_sound {lib : ConfigLibrary} {text : String} {pools : List PoolConfig} (h : lib.parsePools text = .ok pools) :
    pools ≠ [] ∧ (pools.map PoolConfig.address).Nodup ∧
      ∀ pool ∈ pools, 0 ≤ pool.minPrimaryCollateral ∧ CONTRACT_MIN_HEALTH < pool.minHealthFactor := by
  obtain ⟨raw, -, hraw, hnodup, hgives⟩ := parsePools_ok_iff.1 h
  refine ⟨?_, by rw [forall₂_gives_addresses hgives]; exact hnodup, fun pool hpool => ?_⟩
  · rintro rfl
    cases hgives
    exact hraw rfl
  · obtain ⟨table, hgives⟩ := forall₂_mem_right hgives hpool
    exact ⟨hgives.nonneg, hgives.kept ▸ hgives.health⟩

/-- An accepted configuration of parsed knobs is runnable. -/
theorem ServiceConfig.runnable_of_accepted {args : Args} {lib : ConfigLibrary}
    {databaseUrl rpcApiKey telegramBotToken : Option String} {config : ServiceConfig} (hparsed : args.Parsed)
    (h : args.serviceWithSecrets lib databaseUrl rpcApiKey telegramBotToken = .ok config) : config.Runnable := by
  obtain ⟨hconfigures, hknobs⟩ := Args.serviceWithSecrets_ok h
  obtain ⟨text, -, hpools⟩ := Args.pools_ok_iff.1 hknobs.pools
  obtain ⟨hne, hnodup, hpool⟩ := parsePools_sound hpools
  have hmultiplier := hparsed.hfSafetyMultiplier.multiplier
  rw [← hknobs.hfSafetyMultiplier] at hmultiplier
  refine ⟨hne, hnodup, fun pool hmem => (hpool pool hmem).1, fun pool hmem floor hfloor => ?_, ⟨?_, ?_⟩, ?_, ?_, ?_⟩
  · have hhealth := (hpool pool hmem).2
    have hpos : (0 : Int) ≤ CONTRACT_MIN_HEALTH := by decide
    exact ⟨hhealth, healthFloor_ge (by omega) hmultiplier hfloor⟩
  · rw [hknobs.liquidationHealthFactor]
    exact hparsed.liqHfThreshold.nonneg
  · rw [hknobs.liquidationHealthFactor, hknobs.scanHealthFactor]
    exact hconfigures.thresholds
  · rw [hknobs.targetHealthFactor]
    exact hparsed.targetHf.target
  · have hreserve := hconfigures.reserve.2
    rw [← hknobs.xlmFeeReserve] at hreserve
    exact_mod_cast hreserve
  · rw [hknobs.highFeeProfitThreshold]
    exact hparsed.highFeeProfitThreshold.nonneg

/-- **What is configured can be run on.** The settings are accepted exactly
where each pair is whole, the key's header is a valid name where one is set, a
chain and a database are named, one source gives pools, the liquidation threshold
is below the scan's and the reserve is one a wallet can hold; and what is accepted
then is runnable. -/
theorem accepted_config_runs (args : Args) (lib : ConfigLibrary) (databaseUrl rpcApiKey telegramBotToken : Option String)
    (hparsed : args.Parsed) :
    ((∃ config, args.serviceWithSecrets lib databaseUrl rpcApiKey telegramBotToken = .ok config) ↔
      args.Configures lib databaseUrl rpcApiKey telegramBotToken) ∧
    ∀ config, args.serviceWithSecrets lib databaseUrl rpcApiKey telegramBotToken = .ok config → config.Runnable :=
  ⟨⟨fun ⟨_, h⟩ => (Args.serviceWithSecrets_ok h).1, Args.Configures.ok⟩,
    fun _ h => ServiceConfig.runnable_of_accepted hparsed h⟩

def sampleTable : RawPool where
  address := "CPOOL"
  primaryAsset := "CUSDC"
  minPrimaryCollateral := "1000000"
  minHealthFactor := ⟨11000000⟩
  defaultProfitBps := 100
  supportedBid := []
  supportedLot := []

/-- A library that finds `sampleTable` in every file. -/
def sampleConfigLibrary : ConfigLibrary where
  toml _ := .ok [sampleTable]
  headerName _ := true
  readToString _ := .error "no such file"
  fromSecret secret := .ok ⟨secret⟩
  display _ := "a key that does not parse"

/-- The knobs' defaults, on testnet. -/
def sampleArgs : Args where
  dryRun := true
  networkPassphrase := none
  network := some .testnet
  rpcUrl := some "https://rpc"
  rpcApiKeyHeader := none
  baseFee := 100000
  highFee := 1000000
  txPollLedgers := 60
  poolsFile := none
  poolsToml := some "[[pools]]"
  runMode := .loop
  databaseMaxConnections := 10
  pollIntervalMs := 1000
  userRefreshLedgers := 241920
  refreshBatch := 20
  fullScanLedgers := 1200
  scanHfThreshold := ⟨12000000⟩
  liqHfThreshold := ⟨9980000⟩
  targetHf := ⟨10600000⟩
  oracleScanLedgers := 60
  priceDeltaBps := 250
  planIterations := 5
  startupDelayLedgers := 0
  hfSafetyMultiplier := ⟨11000000⟩
  replanLedgers := 10
  replanNearLedgers := 5
  xlmFeeReserve := ⟨500000000⟩
  highFeeProfitThreshold := ⟨100000000⟩
  inventoryRefreshSecs := 30
  failureNotificationCooldownHours := 24
  port := none
  httpPort := none
  httpBindAddr := "0.0.0.0"
  healthMaxLagLedgers := 60
  telegramChatId := some ""
  seedUrl := ""
  seedHfMax := ⟨50000000⟩
  seedFile := none

theorem sampleArgs_parsed : sampleArgs.Parsed where
  txPollLedgers := by decide
  databaseMaxConnections := by decide
  pollIntervalMs := by decide
  refreshBatch := by decide
  fullScanLedgers := by decide
  scanHfThreshold := ⟨"1.2", by decide +kernel⟩
  liqHfThreshold := ⟨"0.998", by decide +kernel⟩
  targetHf := ⟨"1.06", by decide +kernel⟩
  oracleScanLedgers := by decide
  priceDeltaBps := by decide
  planIterations := by decide
  hfSafetyMultiplier := ⟨"1.1", by decide +kernel⟩
  replanLedgers := by decide
  xlmFeeReserve := ⟨"50", by decide +kernel⟩
  highFeeProfitThreshold := ⟨"10", by decide +kernel⟩
  inventoryRefreshSecs := by decide
  failureNotificationCooldownHours := by decide
  healthMaxLagLedgers := by decide

theorem sampleTable_gives : ∃ pool, sampleTable.Gives pool := by
  have hamount : parseI128 sampleTable.minPrimaryCollateral = some 1000000 := by decide +kernel
  exact ⟨⟨"CPOOL", "CUSDC", 1000000, 11000000, 100, false, .freeFill, [], [], []⟩, hamount, by decide, by decide,
    .inr ⟨rfl, rfl⟩, rfl⟩

theorem sampleArgs_configures : sampleArgs.Configures sampleConfigLibrary (some "postgres://localhost/bot") none none where
  telegram := rfl
  chain := ⟨.inr rfl, rfl, fun _ h => (by cases h), rfl⟩
  database := rfl
  pools := by
    obtain ⟨pool, hgives⟩ := sampleTable_gives
    exact ⟨"[[pools]]", [pool], .inl ⟨rfl, rfl⟩,
      parsePools_ok_iff.2 ⟨[sampleTable], rfl, by simp, by simp, .cons hgives .nil⟩⟩
  thresholds := by decide
  reserve := by decide

/-- The defaults are accepted, with an empty chat id for none. -/
theorem accepted_config_runs_defaults : ∃ config : ServiceConfig,
    sampleArgs.serviceWithSecrets sampleConfigLibrary (some "postgres://localhost/bot") none none = .ok config ∧
      config.Runnable := by
  obtain ⟨haccepted, hruns⟩ := accepted_config_runs sampleArgs sampleConfigLibrary (some "postgres://localhost/bot") none none
    sampleArgs_parsed
  obtain ⟨config, hconfig⟩ := haccepted.2 sampleArgs_configures
  exact ⟨config, hconfig, hruns config hconfig⟩

end BlendLiquidator
