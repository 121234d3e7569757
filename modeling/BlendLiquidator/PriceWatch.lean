/-
The oracle scan's memory (`PriceWatch`): which prices a read reports as moved.

A reference is what the next price of its asset is measured against. It is set
by the first sighting, by a reported move, and by a read that finds it standing
for `staleAfter` seconds with no significant move since; `anchorOf` says the
same of a whole history, from what was read and reported alone. So a drift is
noticed against the last of the three, and a refresh in between hides what came
before it.
-/
import BlendLiquidator.FixedFacts
import BlendLiquidator.Position
import BlendLiquidator.TreeMaps
import BlendLiquidator.Fill

namespace BlendLiquidator

/-- Which way a price moved from its reference. -/
inductive Direction
  | up
  | down
  deriving Repr, DecidableEq

/-- One asset's significant move. -/
structure PriceMove where
  asset : String
  direction : Direction
  deriving Repr, DecidableEq

/-- One asset's last-noticed price, and when it was noticed. -/
structure Reference where
  price : Int
  setAt : Nat
  deriving Repr, DecidableEq

/-- The direction of a move of at least `thresholdBps` basis points. -/
def movedDirection (price reference : Int) (thresholdBps : Nat) : Except MathError (Option Direction) := do
  let diff ← narrow (if price ≥ reference then price - reference else reference - price)
  let deltaBps ← divFloor diff reference 10000
  if deltaBps < thresholdBps then
    return none
  return some (if price > reference then .up else .down)

/-- Each pool's last-noticed price per asset. -/
structure PriceWatch where
  deltaBps : Nat
  staleAfter : Nat
  references : BTreeMap String (BTreeMap String Reference) := ∅

namespace PriceWatch

variable (watch : PriceWatch)

/-- One asset of `moved`'s loop. -/
def look (now : Nat) (seen : BTreeMap String Reference × List PriceMove) (entry : String × Int) :
    BTreeMap String Reference × List PriceMove :=
  let (asset, price) := entry
  match seen.1[asset]? with
  | none => (seen.1.insert asset ⟨price, now⟩, seen.2)
  | some reference => match movedDirection price reference.price watch.deltaBps with
    | .ok (some direction) => (seen.1.insert asset ⟨price, now⟩, seen.2 ++ [⟨asset, direction⟩])
    | .ok none =>
      if reference.setAt ≤ now ∧ watch.staleAfter ≤ now - reference.setAt then
        (seen.1.insert asset ⟨price, now⟩, seen.2)
      else
        seen
    | .error _ => seen

/-- Compares prices against the pool's references, and reports each that moved. -/
def moved (pool : String) (prices : OraclePrices) (now : Nat) : PriceWatch × List PriceMove :=
  let (poolReferences, moves) := prices.prices.toList.foldl (watch.look now) (watch.references.getD pool ∅, [])
  ({ watch with references := watch.references.insert pool poolReferences }, moves)

/-- The reference of one asset in one pool. -/
def referenceOf (pool asset : String) : Option Reference := (watch.references.getD pool ∅)[asset]?

end PriceWatch

/-- One call of `moved`. Every price is an `i128`. -/
structure PriceRead where
  pool : String
  prices : OraclePrices
  now : Nat
  inRange : ∀ (asset : String) (price : Int), prices.prices[asset]? = some price → price ≤ i128Max

/-- Calls in sequence: the watch they leave, and what each of them reported. -/
def PriceWatch.run (watch : PriceWatch) : List PriceRead → PriceWatch × List (PriceRead × List PriceMove)
  | [] => (watch, [])
  | read :: rest =>
    let out := watch.moved read.pool read.prices read.now
    let later := out.1.run rest
    (later.1, (read, out.2) :: later.2)

/-- What a call reports after others. -/
def reported (deltaBps staleAfter : Nat) (reads : List PriceRead) (read : PriceRead) : List PriceMove :=
  ((PriceWatch.run { deltaBps, staleAfter } reads).1.moved read.pool read.prices read.now).2

/-- What calls reported, one after the other. -/
def history (deltaBps staleAfter : Nat) (reads : List PriceRead) : List (PriceRead × List PriceMove) :=
  (PriceWatch.run { deltaBps, staleAfter } reads).2

/-! ## What a price is measured against -/

/-- `|price − reference| × 10_000 / reference`. -/
def basisPoints (price reference : Int) : Int := max (price - reference) (reference - price) * 10000 / reference

/-- A price at the end of a history of one asset in one pool: the first
sighting's, a reported move's, or one a reference was refreshed to that had
stood for `staleAfter` with no significant move. -/
def anchorStep (deltaBps staleAfter : Nat) (pool asset : String) (anchor : Option Reference)
    (call : PriceRead × List PriceMove) : Option Reference :=
  if call.1.pool = pool then
    match call.1.prices.prices[asset]?, anchor with
    | none, anchor => anchor
    | some price, none => some ⟨price, call.1.now⟩
    | some price, some reference =>
      if asset ∈ call.2.map (·.asset) then
        some ⟨price, call.1.now⟩
      else if basisPoints price reference.price < deltaBps ∧ reference.setAt ≤ call.1.now ∧
          staleAfter ≤ call.1.now - reference.setAt then
        some ⟨price, call.1.now⟩
      else
        some reference
  else
    anchor

def anchorOf (deltaBps staleAfter : Nat) (calls : List (PriceRead × List PriceMove)) (pool asset : String) :
    Option Reference :=
  calls.foldl (anchorStep deltaBps staleAfter pool asset) none

/-! ## One call -/

section Judging

variable {price reference : Int} {thresholdBps : Nat}

/-- Between positive `i128`s a move is judged, unless its basis points do not
fit. -/
theorem movedDirection_eq (hprice : 0 < price) (hprice' : price ≤ i128Max) (href : 0 < reference)
    (href' : reference ≤ i128Max) :
    movedDirection price reference thresholdBps =
      if basisPoints price reference ≤ i128Max then
        .ok (if basisPoints price reference < thresholdBps then none else some (if reference < price then .up else .down))
      else
        .error .overflow := by
  have habs : (if price ≥ reference then price - reference else reference - price) =
      max (price - reference) (reference - price) := by
    split <;> omega
  have hdiff : narrow (max (price - reference) (reference - price)) = .ok (max (price - reference) (reference - price)) :=
    narrow_of_le (by omega) (by omega) le_rfl
  have hpos : 0 ≤ basisPoints price reference :=
    Int.ediv_nonneg (Int.mul_nonneg (by omega) (by decide)) href.le
  unfold movedDirection
  rw [habs, hdiff]
  simp only [bind, Except.bind]
  rw [divFloor_eq href]
  by_cases hfits : basisPoints price reference ≤ i128Max
  · rw [show narrow (max (price - reference) (reference - price) * 10000 / reference) = .ok (basisPoints price reference) from
      narrow_of_le hpos le_rfl hfits, if_pos hfits]
    dsimp only
    split
    · rfl
    · rfl
  · have hover : narrow (max (price - reference) (reference - price) * 10000 / reference) = .error .overflow := by
      unfold narrow checked
      rw [if_neg fun h => hfits h.2]
    rw [hover, if_neg hfits]

end Judging

namespace PriceWatch

variable {watch : PriceWatch} {pool asset : String} {prices : OraclePrices} {now : Nat}

/-- What one price makes of its asset's reference, and what is reported of it. -/
def judge (watch : PriceWatch) (now : Nat) (price : Int) : Option Reference → Option Reference × Option Direction
  | none => (some ⟨price, now⟩, none)
  | some reference => match movedDirection price reference.price watch.deltaBps with
    | .ok (some direction) => (some ⟨price, now⟩, some direction)
    | .ok none =>
      (some (if reference.setAt ≤ now ∧ watch.staleAfter ≤ now - reference.setAt then ⟨price, now⟩ else reference), none)
    | .error _ => (some reference, none)

/-- One asset's reference and reports, in the loop's state. -/
def ofAsset (seen : BTreeMap String Reference × List PriceMove) (asset : String) : Option Reference × List Direction :=
  (seen.1[asset]?, (seen.2.filter (·.asset = asset)).map (·.direction))

theorem look_ofAsset (seen : BTreeMap String Reference × List PriceMove) (entry : String × Int) :
    ofAsset (watch.look now seen entry) entry.1 =
        ((watch.judge now entry.2 (ofAsset seen entry.1).1).1,
          (ofAsset seen entry.1).2 ++ (watch.judge now entry.2 (ofAsset seen entry.1).1).2.toList) ∧
      ∀ a, entry.1 ≠ a → ofAsset (watch.look now seen entry) a = ofAsset seen a := by
  obtain ⟨asset, price⟩ := entry
  simp only [look, ofAsset]
  cases hseen : seen.1[asset]? with
  | none =>
    refine ⟨by simp [judge], fun a hne => ?_⟩
    simp [TreeMaps.getElem?_insert, hne]
  | some reference =>
    simp only [judge]
    cases movedDirection price reference.price watch.deltaBps with
    | error error => exact ⟨by simp [hseen], fun a hne => rfl⟩
    | ok verdict =>
      cases verdict with
      | some direction =>
        refine ⟨by simp, fun a hne => ?_⟩
        simp [TreeMaps.getElem?_insert, hne]
      | none =>
        dsimp only
        split
        · refine ⟨by simp, fun a hne => ?_⟩
          simp [TreeMaps.getElem?_insert, hne]
        · exact ⟨by simp [hseen], fun a hne => rfl⟩

/-- What a call makes of one asset: nothing where it does not name it. -/
theorem moved_ofAsset (watch : PriceWatch) (pool : String) (prices : OraclePrices) (now : Nat) (asset : String) :
    (watch.moved pool prices now).1.referenceOf pool asset =
        prices.prices[asset]?.elim (watch.referenceOf pool asset) (fun price =>
          (watch.judge now price (watch.referenceOf pool asset)).1) ∧
      ((watch.moved pool prices now).2.filter (·.asset = asset)).map (·.direction) =
        prices.prices[asset]?.elim [] fun price => (watch.judge now price (watch.referenceOf pool asset)).2.toList := by
  have hfold : prices.prices[asset]?.elim
      (ofAsset (prices.prices.toList.foldl (watch.look now) (watch.references.getD pool ∅, [])) asset =
        ofAsset (watch.references.getD pool ∅, []) asset) fun price =>
      ofAsset (prices.prices.toList.foldl (watch.look now) (watch.references.getD pool ∅, [])) asset =
        ((watch.judge now price (watch.referenceOf pool asset)).1,
          [] ++ (watch.judge now price (watch.referenceOf pool asset)).2.toList) :=
    TreeMaps.foldl_toList_at (R := fun price before after => after =
        ((watch.judge now price before.1).1, before.2 ++ (watch.judge now price before.1).2.toList))
      look_ofAsset prices.prices (watch.references.getD pool ∅, []) asset
  have hself : (watch.moved pool prices now).1.referenceOf pool asset =
      (prices.prices.toList.foldl (watch.look now) (watch.references.getD pool ∅, [])).1[asset]? := by
    simp only [moved, referenceOf, TreeMaps.getD_insert, if_true]
  rw [hself]
  cases hprice : prices.prices[asset]? with
  | none =>
    rw [hprice] at hfold
    exact ⟨congrArg Prod.fst hfold, congrArg Prod.snd hfold⟩
  | some price =>
    rw [hprice] at hfold
    exact ⟨congrArg Prod.fst hfold, congrArg Prod.snd hfold⟩

theorem moved_reference_of_ne {pool' : String} (h : pool ≠ pool') :
    (watch.moved pool prices now).1.referenceOf pool' asset = watch.referenceOf pool' asset := by
  simp only [moved, referenceOf, TreeMaps.getD_insert, if_neg h]

theorem mem_moved_iff {direction : Direction} : (⟨asset, direction⟩ : PriceMove) ∈ (watch.moved pool prices now).2 ↔
    ∃ price, prices.prices[asset]? = some price ∧
      (watch.judge now price (watch.referenceOf pool asset)).2 = some direction := by
  have hdirections := (moved_ofAsset watch pool prices now asset).2
  have hmem : (⟨asset, direction⟩ : PriceMove) ∈ (watch.moved pool prices now).2 ↔
      direction ∈ ((watch.moved pool prices now).2.filter (·.asset = asset)).map (·.direction) := by
    simp only [List.mem_map, List.mem_filter, decide_eq_true_eq]
    constructor
    · exact fun h => ⟨_, ⟨h, rfl⟩, rfl⟩
    · intro ⟨⟨_, _⟩, ⟨hin, heq⟩, heq'⟩
      subst heq heq'
      exact hin
  rw [hmem, hdirections]
  cases prices.prices[asset]? with
  | none => simp
  | some price => simp [eq_comm]

/-! ## A whole history -/

/-- A reference to a price there can be. -/
def Referable (reference : Option Reference) : Prop := ∀ r, reference = some r → 0 < r.price ∧ r.price ≤ i128Max

section Judge

variable {price : Int} {reference : Reference} (hprice : 0 < price) (hprice' : price ≤ i128Max) (href : 0 < reference.price)
  (href' : reference.price ≤ i128Max)

include hprice hprice' href href'

theorem judge_far (hfar : watch.deltaBps ≤ basisPoints price reference.price)
    (hfits : basisPoints price reference.price ≤ i128Max) :
    watch.judge now price (some reference) =
      (some ⟨price, now⟩, some (if reference.price < price then .up else .down)) := by
  rw [judge, movedDirection_eq hprice hprice' href href', if_pos hfits, if_neg (not_lt.2 hfar)]

theorem judge_near (hdelta : watch.deltaBps ≤ u32Max) (hnear : basisPoints price reference.price < watch.deltaBps) :
    watch.judge now price (some reference) =
      (some (if reference.setAt ≤ now ∧ watch.staleAfter ≤ now - reference.setAt then ⟨price, now⟩ else reference), none) := by
  have hfits : basisPoints price reference.price ≤ i128Max := by
    simp only [u32Max, i128Max] at hdelta ⊢
    omega
  rw [judge, movedDirection_eq hprice hprice' href href', if_pos hfits, if_pos hnear]

theorem judge_unfit (hover : ¬basisPoints price reference.price ≤ i128Max) :
    watch.judge now price (some reference) = (some reference, none) := by
  rw [judge, movedDirection_eq hprice hprice' href href', if_neg hover]

end Judge

/-- A call moves the reference as the history says. -/
theorem moved_anchorStep (hdelta : watch.deltaBps ≤ u32Max) (read : PriceRead)
    (hanchor : Referable (watch.referenceOf pool asset)) :
    (watch.moved read.pool read.prices read.now).1.referenceOf pool asset =
      anchorStep watch.deltaBps watch.staleAfter pool asset (watch.referenceOf pool asset)
        (read, (watch.moved read.pool read.prices read.now).2) := by
  unfold anchorStep
  by_cases hpool : read.pool = pool
  · subst hpool
    rw [if_pos rfl, (moved_ofAsset watch read.pool read.prices read.now asset).1]
    have hreported : asset ∈ (watch.moved read.pool read.prices read.now).2.map (·.asset) ↔
        ∃ direction, (⟨asset, direction⟩ : PriceMove) ∈ (watch.moved read.pool read.prices read.now).2 := by
      rw [List.mem_map]
      constructor
      · intro ⟨⟨_, direction⟩, hin, heq⟩
        subst heq
        exact ⟨direction, hin⟩
      · exact fun ⟨direction, hin⟩ => ⟨_, hin, rfl⟩
    simp only [mem_moved_iff] at hreported
    cases hprice : read.prices.prices[asset]? with
    | none => rfl
    | some price =>
      simp only [hprice, Option.some.injEq, exists_eq_left'] at hreported
      dsimp only [Option.elim_some]
      cases href : watch.referenceOf read.pool asset with
      | none => rfl
      | some reference =>
        rw [href] at hreported
        obtain ⟨hpos, hmax⟩ := hanchor reference href
        have hpos' := read.prices.prices_pos asset price hprice
        have hmax' := read.inRange asset price hprice
        dsimp only
        by_cases hnear : basisPoints price reference.price < watch.deltaBps
        · rw [judge_near hpos' hmax' hpos hmax hdelta hnear] at hreported ⊢
          have hnot : asset ∉ (watch.moved read.pool read.prices read.now).2.map (·.asset) := by simp [hreported]
          rw [if_neg hnot]
          simp only [hnear, true_and]
          split <;> rfl
        by_cases hfits : basisPoints price reference.price ≤ i128Max
        · rw [judge_far hpos' hmax' hpos hmax (not_lt.1 hnear) hfits] at hreported ⊢
          rw [if_pos (hreported.2 ⟨_, rfl⟩)]
        · rw [judge_unfit hpos' hmax' hpos hmax hfits] at hreported ⊢
          have hnot : asset ∉ (watch.moved read.pool read.prices read.now).2.map (·.asset) := by simp [hreported]
          rw [if_neg hnot, if_neg fun h => hnear h.1]
  · rw [if_neg hpool, moved_reference_of_ne hpool]

theorem anchorStep_referable {deltaBps staleAfter : Nat} {anchor : Option Reference} {call : PriceRead × List PriceMove}
    (h : Referable anchor) : Referable (anchorStep deltaBps staleAfter pool asset anchor call) := by
  have hread : ∀ price, call.1.prices.prices[asset]? = some price → Referable (some ⟨price, call.1.now⟩) := by
    intro price hprice reference heq
    cases heq
    exact ⟨call.1.prices.prices_pos asset price hprice, call.1.inRange asset price hprice⟩
  unfold anchorStep
  split
  · split
    · exact h
    · next hprice => exact hread _ hprice
    · next hprice =>
      split
      · exact hread _ hprice
      split
      · exact hread _ hprice
      · exact h
  · exact h

/-- Calls in sequence do. -/
theorem run_anchor (watch : PriceWatch) (pool asset : String) (hdelta : watch.deltaBps ≤ u32Max) (reads : List PriceRead)
    (hanchor : Referable (watch.referenceOf pool asset)) :
    (watch.run reads).1.referenceOf pool asset =
        (watch.run reads).2.foldl (anchorStep watch.deltaBps watch.staleAfter pool asset) (watch.referenceOf pool asset) ∧
      Referable ((watch.run reads).1.referenceOf pool asset) := by
  induction reads generalizing watch with
  | nil => exact ⟨rfl, hanchor⟩
  | cons read rest ih =>
    have hstep := moved_anchorStep hdelta read hanchor
    have hnext : Referable ((watch.moved read.pool read.prices read.now).1.referenceOf pool asset) := by
      rw [hstep]
      exact anchorStep_referable hanchor
    obtain ⟨hrun, hend⟩ := ih (watch.moved read.pool read.prices read.now).1 hdelta hnext
    refine ⟨?_, hend⟩
    rw [hstep] at hrun
    exact hrun

theorem run_deltaBps (watch : PriceWatch) (reads : List PriceRead) : (watch.run reads).1.deltaBps = watch.deltaBps := by
  induction reads generalizing watch with
  | nil => rfl
  | cons read rest ih => exact ih _

/-- What a call reports of a pool, and leaves of it, is a matter of that pool's
references. -/
theorem moved_congr {watch' : PriceWatch} (hdelta : watch'.deltaBps = watch.deltaBps)
    (hstale : watch'.staleAfter = watch.staleAfter)
    (hreferences : watch'.references.getD pool ∅ = watch.references.getD pool ∅) :
    (watch'.moved pool prices now).2 = (watch.moved pool prices now).2 ∧
      (watch'.moved pool prices now).1.references.getD pool ∅ = (watch.moved pool prices now).1.references.getD pool ∅ := by
  have hlook : watch'.look now = watch.look now := by
    funext seen entry
    simp only [look, hdelta, hstale]
  simp only [moved, hlook, hreferences, TreeMaps.getD_insert, if_true, and_self]

/-- The calls for other pools leave a pool's references alone. -/
theorem run_filter (watch watch' : PriceWatch) (pool : String) (hdelta : watch'.deltaBps = watch.deltaBps)
    (hstale : watch'.staleAfter = watch.staleAfter)
    (hreferences : watch'.references.getD pool ∅ = watch.references.getD pool ∅) (reads : List PriceRead) :
    (watch'.run (reads.filter (·.pool = pool))).1.deltaBps = (watch.run reads).1.deltaBps ∧
      (watch'.run (reads.filter (·.pool = pool))).1.staleAfter = (watch.run reads).1.staleAfter ∧
      (watch'.run (reads.filter (·.pool = pool))).1.references.getD pool ∅ = (watch.run reads).1.references.getD pool ∅ := by
  induction reads generalizing watch watch' with
  | nil => exact ⟨hdelta, hstale, hreferences⟩
  | cons read rest ih =>
    by_cases hpool : read.pool = pool
    · rw [List.filter_cons_of_pos (by simpa using hpool)]
      subst hpool
      exact ih _ _ hdelta hstale (moved_congr hdelta hstale hreferences).2
    · rw [List.filter_cons_of_neg (by simpa using hpool)]
      refine ih _ _ hdelta hstale ?_
      simp only [moved, TreeMaps.getD_insert, if_neg hpool, hreferences]

end PriceWatch

/-- **A drift is noticed against the last reference.** A read that finds a price
at least `deltaBps` basis points from the one at its asset's last reported move,
first sighting or refresh in that pool, whichever came last, reports it as moved
in that direction, where the basis points are an `i128`; and what a read reports
is the same with the other pools' reads left out. -/
theorem drift_noticed {deltaBps staleAfter : Nat} (hdelta : 1 ≤ deltaBps) (hu32 : deltaBps ≤ u32Max) (reads : List PriceRead)
    (read : PriceRead) :
    (∀ asset price anchor, read.prices.prices[asset]? = some price →
      anchorOf deltaBps staleAfter (history deltaBps staleAfter reads) read.pool asset = some anchor →
      deltaBps ≤ basisPoints price anchor.price → basisPoints price anchor.price ≤ i128Max →
      anchor.price < price ∧ ⟨asset, .up⟩ ∈ reported deltaBps staleAfter reads read ∨
        price < anchor.price ∧ ⟨asset, .down⟩ ∈ reported deltaBps staleAfter reads read) ∧
    reported deltaBps staleAfter (reads.filter (·.pool = read.pool)) read = reported deltaBps staleAfter reads read := by
  constructor
  · intro asset price anchor hprice hanchor hfar hfits
    have hempty : PriceWatch.referenceOf { deltaBps, staleAfter } read.pool asset = none := by
      simp [PriceWatch.referenceOf]
    obtain ⟨hrun, hreferable⟩ := PriceWatch.run_anchor { deltaBps, staleAfter } read.pool asset hu32 reads
      (by rw [hempty]; exact nofun)
    rw [hempty] at hrun
    have hreference : (PriceWatch.run { deltaBps, staleAfter } reads).1.referenceOf read.pool asset = some anchor :=
      hrun.trans hanchor
    obtain ⟨hpos, hmax⟩ := hreferable anchor hreference
    have hjudged : (PriceWatch.run { deltaBps, staleAfter } reads).1.judge read.now price (some anchor) =
        (some ⟨price, read.now⟩, some (if anchor.price < price then .up else .down)) := by
      refine PriceWatch.judge_far (read.prices.prices_pos asset price hprice) (read.inRange asset price hprice) hpos hmax ?_
        hfits
      rw [PriceWatch.run_deltaBps]
      exact hfar
    have hreported : ∀ direction, (if anchor.price < price then Direction.up else .down) = direction →
        ⟨asset, direction⟩ ∈ reported deltaBps staleAfter reads read := by
      intro direction hdirection
      refine PriceWatch.mem_moved_iff.2 ⟨price, hprice, ?_⟩
      rw [hreference, hjudged, hdirection]
    rcases lt_trichotomy anchor.price price with hup | hsame | hdown
    · exact .inl ⟨hup, hreported .up (if_pos hup)⟩
    · rw [hsame] at hfar
      simp only [basisPoints, Int.sub_self, max_self, Int.zero_mul, Int.zero_ediv] at hfar
      omega
    · exact .inr ⟨hdown, hreported .down (if_neg (not_lt.2 hdown.le))⟩
  · obtain ⟨hdelta', hstale, hreferences⟩ :=
      PriceWatch.run_filter { deltaBps, staleAfter } { deltaBps, staleAfter } read.pool rfl rfl rfl reads
    exact (PriceWatch.moved_congr hdelta' hstale hreferences).1

/-- One asset's price read for one pool. -/
def oneRead (price : Int) (now : Nat) (hpos : 0 < price) (hmax : price ≤ i128Max) : PriceRead where
  pool := "POOL"
  prices :=
    { decimals := 7, scalar := 10000000, prices := (∅ : BTreeMap String Int).insert "CASSET" price, scalar_eq := SCALAR_7_eq
      prices_pos := fun asset p h => by
        rw [TreeMaps.getElem?_insert] at h
        split at h
        · cases h; exact hpos
        · simp at h }
  now
  inRange asset p h := by
    dsimp only at h
    rw [TreeMaps.getElem?_insert] at h
    split at h
    · cases h; exact hmax
    · simp at h

def day : Nat := 86400

/-- A first sighting, and a hundred basis points more a day later. -/
def driftReads : List PriceRead :=
  [oneRead 10000000 0 (by decide) (by decide), oneRead 10100000 day (by decide) (by decide)]

/-- From the refreshed price on, 253 basis points are reported. -/
theorem drift_noticed_after_refresh :
    ⟨"CASSET", .up⟩ ∈ reported 250 day driftReads (oneRead 10356000 day (by decide) (by decide)) := by
  have hanchor : anchorOf 250 day (history 250 day driftReads) "POOL" "CASSET" = some ⟨10100000, day⟩ := by decide +kernel
  rcases (drift_noticed (by decide) (by decide) driftReads (oneRead 10356000 day (by decide) (by decide))).1 "CASSET" 10356000
      ⟨10100000, day⟩ (by decide +kernel) hanchor (by decide) (by decide) with ⟨-, hup⟩ | ⟨hdown, -⟩
  · exact hup
  · exact absurd hdown (by decide)

/-- The price last noticed, a refresh aside: the last reported move's, or the
first sighting's. -/
def noticedStep (pool asset : String) (noticed : Option Int) (call : PriceRead × List PriceMove) : Option Int :=
  if call.1.pool = pool then
    match call.1.prices.prices[asset]?, noticed with
    | none, noticed => noticed
    | some price, none => some price
    | some price, some noticed => some (if asset ∈ call.2.map (·.asset) then price else noticed)
  else
    noticed

def lastNoticed (calls : List (PriceRead × List PriceMove)) (pool asset : String) : Option Int :=
  calls.foldl (noticedStep pool asset) none

/-- A day's refresh in between, and 250 basis points from the price last
noticed go unreported; so does a move whose basis points no `i128` holds. -/
theorem drift_unnoticed :
    (lastNoticed (history 250 day driftReads) "POOL" "CASSET" = some 10000000 ∧
      basisPoints 10250000 10000000 = 250 ∧
      reported 250 day driftReads (oneRead 10250000 day (by decide) (by decide)) = []) ∧
    (lastNoticed (history 250 day [oneRead 1 0 (by decide) (by decide)]) "POOL" "CASSET" = some 1 ∧
      250 ≤ basisPoints i128Max 1 ∧
      reported 250 day [oneRead 1 0 (by decide) (by decide)] (oneRead i128Max 0 (by decide) (by decide)) = []) := by
  constructor
  · refine ⟨by decide +kernel, by decide, by decide +kernel⟩
  · refine ⟨by decide +kernel, by decide, by decide +kernel⟩

end BlendLiquidator
