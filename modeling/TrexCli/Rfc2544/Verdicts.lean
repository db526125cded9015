import Mathlib.Data.List.Nodup
import TrexCli.Lib.Checks
import TrexCli.Rfc2544.Convergence
import TrexCli.Rfc2544.Methods

/-!
# The verdict of an assertion

An assertion is judged in three places: over the thresholds when the directions run together, over the
results when they run apart, and over the thresholds of measured sizes in the simulated engine. They
follow one rule exactly when each threshold stands under the plain text of a size that is measured
(`verdictLaw_iff`).
-/

namespace TrexCli.Rfc2544

/-- The verdict of `_run_rfc2544_sync`. -/
def combinedVerdict (assertion : Option ThroughputAssertion) (results : List FrameSearchResult) :
    Verdict :=
  let throughput := results.map fun item => (toString item.frameSize, item.throughputPercentL1)
  throughputVerdict results assertion fun assertion =>
    assertion.minimumPercentLineRate.all fun (size, threshold) =>
      ((throughput.lookup size).bind id).any fun measured => threshold ≤ measured

/-- The verdict of `_run_rfc2544_each_sync`. -/
def eachVerdict (assertion : Option ThroughputAssertion) (forward reverse : List FrameSearchResult) :
    Verdict :=
  throughputVerdict (forward ++ reverse) assertion fun assertion =>
    (forward ++ reverse).all fun item =>
      item.throughputPercentL1.any fun percent =>
        (assertion.minimumPercentLineRate.lookup (toString item.frameSize)).getD 0 ≤ percent

/-- The verdict of `_measure` of the simulated engine, which measures one rate for all sizes. -/
def simulatedVerdict (assertion : Option ThroughputAssertion) (frameSizes : List Nat) (measured : ℚ) :
    Verdict :=
  match assertion with
  | none => .noAssertion
  | some assertion =>
    if assertion.minimumPercentLineRate.all fun (frame, threshold) =>
        !((keySize frame).any fun size => frameSizes.contains size) || decide (threshold ≤ measured)
    then .pass else .fail

/-- A run of the directions together ends with the verdict of its results. -/
theorem runThroughput_verdict {σ : Type} (trial : Option Selected → TrialFunction σ)
    (spec : Rfc2544ThroughputSpec) (ceiling lineRate : ℚ)
    (h : spec.directionMode ≠ some .unidirectionalEach) :
    (do let summary ← runThroughput trial spec ceiling lineRate; pure summary.verdict) = (do
      let results ← searchFrames trial spec ceiling none
      pure (combinedVerdict spec.assertion results)) := by
  rw [runThroughput, if_neg h]
  funext s
  simp only [bind, Effect.bind]
  cases searchFrames trial spec ceiling none s with
  | mk result s' =>
    cases result with
    | ok results => rfl
    | error e => rfl

/-- A run of each direction ends with the verdict of the results of both. -/
theorem runThroughputEach_verdict {σ : Type} (trial : Option Selected → TrialFunction σ)
    (spec : Rfc2544ThroughputSpec) (ceiling lineRate : ℚ) :
    (do let summary ← runThroughputEach trial spec ceiling lineRate; pure summary.verdict) = (do
      let forward ← searchFrames trial spec ceiling (some .forward)
      let reverse ← searchFrames trial spec ceiling (some .reverse)
      pure (eachVerdict spec.assertion forward reverse)) := by
  funext s
  simp only [runThroughputEach, bind, Effect.bind]
  cases searchFrames trial spec ceiling (some .forward) s with
  | mk result s' =>
    cases result with
    | error e => rfl
    | ok forward =>
      dsimp only
      cases searchFrames trial spec ceiling (some .reverse) s' with
      | mk result s'' =>
        cases result with
        | ok reverse => rfl
        | error e => rfl

/-! ### The results of a run -/

/-- The results of the searches of some frame sizes. -/
structure ResultsOf (sizes : List Nat) (results : List FrameSearchResult) : Prop where
  sizes : results.map (fun item => item.frameSize) = sizes
  valid : ∀ item ∈ results, item.valid = item.throughputPercentL1.isSome
  range : ∀ item ∈ results, ∀ percent, item.throughputPercentL1 = some percent →
    0 ≤ percent ∧ percent ≤ 100

/-- A rate that a search reports is between zero and the ceiling. -/
theorem Searched.range {settings : SearchSettings} {ceiling : ℚ} {result : FrameSearchResult}
    (h : Searched settings ceiling result) (hceiling : 0 < ceiling) {percent : ℚ}
    (hpercent : result.throughputPercentL1 = some percent) : 0 ≤ percent ∧ percent ≤ ceiling := by
  cases h with
  | invalid _ hrate _ => simp [hrate] at hpercent
  | found rate _ hrate hpos hle _ =>
    obtain rfl := Option.some.inj (hrate.symm.trans hpercent)
    exact ⟨hpos.le, hle⟩
  | exhausted _ _ hrate _ _ =>
    obtain rfl := Option.some.inj (hrate.symm.trans hpercent)
    exact ⟨le_rfl, hceiling.le⟩
  | unconfirmed _ hrate _ =>
    obtain rfl := Option.some.inj (hrate.symm.trans hpercent)
    exact ⟨le_rfl, hceiling.le⟩

theorem searchFrames_results {σ : Type} (trial : Option Selected → TrialFunction σ)
    (spec : Rfc2544ThroughputSpec) {ceiling : ℚ} (hpos : 0 < ceiling) (hle : ceiling ≤ 100)
    (selected : Option Selected) :
    Effect.Ensures (fun _ => True) (searchFrames trial spec ceiling selected)
      (ResultsOf spec.sizes) := by
  obtain ⟨hsamples, hconfirm⟩ := settingsFor_samples spec.mode ceiling
  have hframe : ∀ size ∈ spec.sizes, Effect.Ensures (fun _ => True)
      (searchFrame (trial selected) size (settingsFor spec.mode ceiling) ceiling) fun item =>
        item.frameSize = size ∧ item.valid = item.throughputPercentL1.isSome ∧
          ∀ percent, item.throughputPercentL1 = some percent → 0 ≤ percent ∧ percent ≤ 100 := by
    intro size _ s hs
    refine ⟨trivial, fun item hitem => ?_⟩
    obtain ⟨-, -, -, hvalid, hsize⟩ :=
      (searchFrame_run (answersAs_true (trial selected) size) ceiling s hs).2 item hitem
    obtain ⟨-, hsearched⟩ := (searchFrame_spec size (settingsFor spec.mode ceiling) hpos hsamples hconfirm
      (safeUpTo_true (trial selected) ceiling) s hs).2 item hitem
    refine ⟨hsize, hvalid, fun percent hpercent => ?_⟩
    obtain ⟨hnonneg, hceiling⟩ := hsearched.range hpos hpercent
    exact ⟨hnonneg, hceiling.trans hle⟩
  refine (Effect.Ensures.forList hframe).mono fun results hresults => ?_
  refine ⟨?_, fun item hitem => ?_, fun item hitem => ?_⟩
  · have hsizes := List.forall₂_map_right_iff.mpr (hresults.imp fun _ _ h => h.1.symm)
    exact (List.forall₂_eq_eq_eq.symm ▸ hsizes : spec.sizes = _).symm
  · obtain ⟨_, -, hitem⟩ := exists_left_of_forall₂ hresults hitem
    exact hitem.2.1
  · obtain ⟨_, -, hitem⟩ := exists_left_of_forall₂ hresults hitem
    exact hitem.2.2

/-! ### The law -/

/-- Valid results of the frame sizes of a run. -/
structure MeasuredAt (sizes : List Nat) (results : List FrameSearchResult) : Prop where
  sizes : results.map (fun item => item.frameSize) = sizes
  valid : ∀ item ∈ results, item.valid = true ∧
    ∃ percent, item.throughputPercentL1 = some percent ∧ 0 ≤ percent ∧ percent ≤ 100

/-- The results of a run are valid results of its frame sizes, if they are valid. -/
theorem ResultsOf.measuredAt {sizes : List Nat} {results : List FrameSearchResult}
    (h : ResultsOf sizes results) (hvalid : ∀ item ∈ results, item.valid = true) :
    MeasuredAt sizes results := by
  refine ⟨h.sizes, fun item hitem => ⟨hvalid item hitem, ?_⟩⟩
  have hsome := h.valid item hitem
  rw [hvalid item hitem] at hsome
  obtain ⟨percent, hpercent⟩ := Option.isSome_iff_exists.mp hsome.symm
  exact ⟨percent, hpercent, h.range item hitem percent hpercent⟩

/-- Every asserted size, read as a number, was measured at its threshold at least. -/
def ThroughputAssertion.Meets (assertion : ThroughputAssertion) (results : List FrameSearchResult) :
    Prop :=
  ∀ p ∈ assertion.minimumPercentLineRate, ∃ item ∈ results, keySize p.1 = some item.frameSize ∧
    ∃ percent, item.throughputPercentL1 = some percent ∧ p.2 ≤ percent

/-- The results of the simulated engine. -/
def simulatedResults (frameSizes : List Nat) (measured : ℚ) : List FrameSearchResult :=
  frameSizes.map fun size => ⟨size, some measured, true, []⟩

/-- The verdict is PASS when the condition holds and FAIL when it does not. -/
def Judges (verdict : Verdict) (condition : Prop) : Prop :=
  (condition → verdict = .pass) ∧ (¬condition → verdict = .fail)

/-- The law of the verdict: all engines judge valid results by what the assertion says of each
direction. -/
structure VerdictLaw (assertion : ThroughputAssertion) (sizes : List Nat) : Prop where
  combined : ∀ results, MeasuredAt sizes results →
    Judges (combinedVerdict (some assertion) results) (assertion.Meets results)
  each : ∀ forward reverse, MeasuredAt sizes forward → MeasuredAt sizes reverse →
    Judges (eachVerdict (some assertion) forward reverse)
      (assertion.Meets forward ∧ assertion.Meets reverse)
  simulated : ∀ measured, 0 < measured → measured ≤ 100 →
    Judges (simulatedVerdict (some assertion) sizes measured)
      (assertion.Meets (simulatedResults sizes measured))

/-- Each threshold stands under the plain text of one of the sizes. -/
def ThroughputAssertion.Plain (assertion : ThroughputAssertion) (sizes : List Nat) : Prop :=
  ∀ p ∈ assertion.minimumPercentLineRate, ∃ size ∈ sizes, p.1 = toString size

/-! ### Keys -/

theorem toList_toString (size : Nat) : (toString size).toList = Text.ofNat size := by
  show (Nat.repr size).toList = _
  simp [Nat.repr, Text.ofNat]

/-- The plain text of a size names it. -/
theorem keySize_toString {size size' : Nat} (h : keySize (toString size) = some size') :
    size = size' := by
  rw [keySize, toList_toString, Text.decimals_ofNat] at h
  split at h
  · exact Option.some.inj h
  · simp at h

theorem toString_inj {size size' : Nat} (h : toString size = toString size') : size = size' := by
  have htexts : (toString size).toList = (toString size').toList := by rw [h]
  rw [toList_toString, toList_toString] at htexts
  exact Text.ofNat_inj htexts

/-- A table with distinct keys finds what it holds. -/
theorem lookup_eq_some_iff_mem {α β : Type} [BEq α] [LawfulBEq α] {table : List (α × β)}
    (h : (table.map Prod.fst).Nodup) {key : α} {value : β} :
    table.lookup key = some value ↔ (key, value) ∈ table := by
  induction table with
  | nil => simp
  | cons entry table ih =>
    obtain ⟨key', value'⟩ := entry
    rw [List.map_cons, List.nodup_cons] at h
    rw [List.lookup_cons]
    by_cases hkey : key = key'
    · subst hkey
      have hnew : ∀ other, (key, other) ∉ table := fun other hmem =>
        h.1 (List.mem_map.mpr ⟨(key, other), hmem, rfl⟩)
      simp [hnew, eq_comm]
    · have hne : (key == key') = false := by simpa using hkey
      simp [hne, ih h.2, hkey]

theorem judges_ite {passed : Bool} {condition : Prop} (h : passed = true ↔ condition) :
    Judges (if passed then .pass else .fail) condition := by
  constructor
  · intro hcondition
    rw [if_pos (h.mpr hcondition)]
  · intro hcondition
    rw [if_neg (mt h.mp hcondition)]

section Law

variable {assertion : ThroughputAssertion} {sizes : List Nat} {results : List FrameSearchResult}

/-- Valid results pass or fail. -/
theorem throughputVerdict_eq (passed : ThroughputAssertion → Bool)
    (hvalid : ∀ item ∈ results, item.valid = true ∧
      ∃ percent, item.throughputPercentL1 = some percent ∧ 0 ≤ percent ∧ percent ≤ 100) :
    throughputVerdict results (some assertion) passed =
      if passed assertion then .pass else .fail := by
  have hall : (results.all fun item => item.valid && item.throughputPercentL1.isSome) = true := by
    rw [List.all_eq_true]
    intro item hitem
    obtain ⟨hitemValid, percent, hpercent, -⟩ := hvalid item hitem
    simp [hitemValid, hpercent]
  rw [throughputVerdict, if_pos hall]

/-- A size that is measured has a result. -/
theorem MeasuredAt.exists_item (h : MeasuredAt sizes results) {size : Nat} (hsize : size ∈ sizes) :
    ∃ item ∈ results, item.frameSize = size := by
  rw [← h.sizes] at hsize
  exact List.mem_map.mp hsize

/-- A size has one result. -/
theorem MeasuredAt.item_unique (h : MeasuredAt sizes results) (hsizes : sizes.Nodup)
    {item item' : FrameSearchResult} (hitem : item ∈ results) (hitem' : item' ∈ results)
    (heq : item.frameSize = item'.frameSize) : item = item' := by
  rw [← h.sizes] at hsizes
  exact List.inj_on_of_nodup_map hsizes hitem hitem' heq

/-- The plain text of a size under which a threshold stands names the size. -/
theorem ThroughputAssertion.keySize_of_plain {p : String × ℚ}
    (hp : p ∈ assertion.minimumPercentLineRate) {size : Nat} (h : p.1 = toString size) :
    keySize p.1 = some size := by
  obtain ⟨⟨named, hnamed, -⟩, -⟩ := assertion.valid p hp
  have heq := hnamed
  rw [h] at heq
  rw [hnamed, keySize_toString heq]

/-- The thresholds pass that stand under the plain text of a size measured at them. -/
theorem combined_passes_iff (h : MeasuredAt sizes results) (hsizes : sizes.Nodup) :
    (assertion.minimumPercentLineRate.all fun (size, threshold) =>
      (((results.map fun item => (toString item.frameSize, item.throughputPercentL1)).lookup size).bind
        id).any fun measured => threshold ≤ measured) = true ↔
      ∀ p ∈ assertion.minimumPercentLineRate, ∃ item ∈ results, p.1 = toString item.frameSize ∧
        ∃ percent, item.throughputPercentL1 = some percent ∧ p.2 ≤ percent := by
  have htable : ((results.map fun item => (toString item.frameSize, item.throughputPercentL1)).map
      Prod.fst).Nodup := by
    have htexts := hsizes.map fun _ _ => toString_inj
    rw [← h.sizes, List.map_map] at htexts
    rwa [List.map_map]
  rw [List.all_eq_true]
  refine forall₂_congr fun p _ => ?_
  rw [Option.any_eq_true]
  constructor
  · intro hany
    obtain ⟨percent, hpercent, hle⟩ := hany
    obtain ⟨measured, hmeasured, rfl⟩ := Option.bind_eq_some_iff.mp hpercent
    rw [lookup_eq_some_iff_mem htable] at hmeasured
    obtain ⟨item, hitem, heq⟩ := List.mem_map.mp hmeasured
    obtain ⟨hkey, hrate⟩ := Prod.mk.inj heq
    exact ⟨item, hitem, hkey.symm, percent, hrate, by simpa using hle⟩
  · intro hitem
    obtain ⟨item, hitem, hkey, percent, hpercent, hle⟩ := hitem
    refine ⟨percent, ?_, by simpa using hle⟩
    rw [Option.bind_eq_some_iff]
    refine ⟨some percent, ?_, rfl⟩
    rw [lookup_eq_some_iff_mem htable, List.mem_map]
    exact ⟨item, hitem, by rw [hkey, hpercent]⟩

/-- The results pass that reach the threshold under the plain text of their size. -/
theorem each_passes_iff (h : MeasuredAt sizes results) (hsizes : sizes.Nodup)
    (hplain : assertion.Plain sizes) :
    (results.all fun item => item.throughputPercentL1.any fun percent =>
      (assertion.minimumPercentLineRate.lookup (toString item.frameSize)).getD 0 ≤ percent) = true ↔
      assertion.Meets results := by
  rw [List.all_eq_true]
  constructor
  · intro hall p hp
    obtain ⟨size, hsize, hkey⟩ := hplain p hp
    obtain ⟨item, hitem, rfl⟩ := h.exists_item hsize
    obtain ⟨-, percent, hpercent, -⟩ := h.valid item hitem
    have hle := hall item hitem
    have hlookup : assertion.minimumPercentLineRate.lookup (toString item.frameSize) = some p.2 := by
      rw [← hkey, lookup_eq_some_iff_mem assertion.unique]
      exact hp
    rw [hpercent, Option.any_some, decide_eq_true_iff, hlookup] at hle
    exact ⟨item, hitem, assertion.keySize_of_plain hp hkey, percent, hpercent, hle⟩
  · intro hmeets item hitem
    obtain ⟨-, percent, hpercent, hnonneg, -⟩ := h.valid item hitem
    rw [hpercent, Option.any_some, decide_eq_true_iff]
    cases hlookup : assertion.minimumPercentLineRate.lookup (toString item.frameSize) with
    | none => exact hnonneg
    | some threshold =>
      rw [lookup_eq_some_iff_mem assertion.unique] at hlookup
      obtain ⟨item', hitem', hkey, percent', hpercent', hle⟩ := hmeets _ hlookup
      obtain rfl := h.item_unique hsizes hitem hitem' (keySize_toString hkey)
      obtain rfl := Option.some.inj (hpercent.symm.trans hpercent')
      exact hle

/-- The simulated engine passes the thresholds of sizes it does not measure. -/
theorem simulated_passes_iff {measured : ℚ} (hplain : assertion.Plain sizes) :
    (assertion.minimumPercentLineRate.all fun (frame, threshold) =>
      !((keySize frame).any fun size => sizes.contains size) || decide (threshold ≤ measured)) = true ↔
      assertion.Meets (simulatedResults sizes measured) := by
  rw [List.all_eq_true]
  refine forall₂_congr fun p hp => ?_
  obtain ⟨size, hsize, hkey⟩ := hplain p hp
  have hnamed := assertion.keySize_of_plain hp hkey
  simp [hnamed, hsize, simulatedResults]

theorem measuredAt_simulatedResults {measured : ℚ} (hpos : 0 < measured) (hle : measured ≤ 100) :
    MeasuredAt sizes (simulatedResults sizes measured) := by
  constructor
  · simp [simulatedResults, Function.comp_def]
  · intro item hitem
    obtain ⟨size, -, rfl⟩ := List.mem_map.mp hitem
    exact ⟨rfl, measured, rfl, hpos.le, hle⟩

end Law

/-- The engines judge every valid measurement by the assertion exactly when each of its thresholds
stands under the plain text of a size that is measured. -/
theorem verdictLaw_iff (assertion : ThroughputAssertion) (sizes : List Nat) (hsizes : sizes.Nodup) :
    VerdictLaw assertion sizes ↔ assertion.Plain sizes := by
  constructor
  · intro hlaw p hp
    have hmeets : assertion.Meets (simulatedResults sizes 100) := by
      by_contra hnot
      have hfail := (hlaw.simulated 100 (by norm_num) le_rfl).2 hnot
      have hpass : (assertion.minimumPercentLineRate.all fun (frame, threshold) =>
          !((keySize frame).any fun size => sizes.contains size) ||
            decide (threshold ≤ (100 : ℚ))) = true := by
        rw [List.all_eq_true]
        intro q hq
        simp [(assertion.valid q hq).2.2]
      rw [simulatedVerdict, if_pos hpass] at hfail
      simp at hfail
    have hmeasured : MeasuredAt sizes (simulatedResults sizes 100) :=
      measuredAt_simulatedResults (by norm_num) le_rfl
    have hpass := (hlaw.combined _ hmeasured).1 hmeets
    rw [combinedVerdict, throughputVerdict_eq _ hmeasured.valid] at hpass
    have hpasses := (combined_passes_iff hmeasured hsizes).mp (by simpa using hpass)
    obtain ⟨item, hitem, hkey, -⟩ := hpasses p hp
    obtain ⟨size, hsize, rfl⟩ := List.mem_map.mp hitem
    exact ⟨size, hsize, hkey⟩
  · intro hplain
    refine ⟨fun results h => ?_, fun forward reverse hforward hreverse => ?_, fun measured _ _ => ?_⟩
    · rw [combinedVerdict, throughputVerdict_eq _ h.valid]
      refine judges_ite ((combined_passes_iff h hsizes).trans (forall₂_congr fun p hp => ?_))
      obtain ⟨size, -, hkey⟩ := hplain p hp
      have hnamed := assertion.keySize_of_plain hp hkey
      refine exists_congr fun item => and_congr_right fun _ => and_congr_left fun _ => ?_
      rw [hnamed, hkey, Option.some.injEq]
      exact ⟨toString_inj, fun heq => by rw [heq]⟩
    · rw [eachVerdict, throughputVerdict_eq]
      · refine judges_ite ?_
        rw [List.all_append, Bool.and_eq_true, each_passes_iff hforward hsizes hplain,
          each_passes_iff hreverse hsizes hplain]
      · intro item hitem
        rcases List.mem_append.mp hitem with hitem | hitem
        · exact hforward.valid item hitem
        · exact hreverse.valid item hitem
    · rw [simulatedVerdict]
      exact judges_ite (simulated_passes_iff hplain)

/-- A threshold for a size that is measured. -/
def assertSixtyFour : ThroughputAssertion where
  minimumPercentLineRate := [("64", 90)]
  unique := by decide
  ne := by decide
  valid := by
    intro p hp
    obtain rfl := List.mem_singleton.mp hp
    exact ⟨⟨64, by decide, by decide, by decide⟩, by norm_num, by norm_num⟩

theorem verdictLaw_sixtyFour : VerdictLaw assertSixtyFour [64, 512, 1518] := by
  refine (verdictLaw_iff assertSixtyFour [64, 512, 1518] (by decide)).mpr fun p hp => ?_
  obtain rfl := List.mem_singleton.mp hp
  exact ⟨64, by decide, by decide⟩

/-- A threshold for a size that is not measured, beside one for a size that is. -/
def assertUnmeasured : ThroughputAssertion where
  minimumPercentLineRate := [("64", 90), ("512", 90)]
  unique := by decide
  ne := by decide
  valid := by
    intro p hp
    rcases List.mem_pair.mp hp with rfl | rfl
    · exact ⟨⟨64, by decide, by decide, by decide⟩, by norm_num, by norm_num⟩
    · exact ⟨⟨512, by decide, by decide, by decide⟩, by norm_num, by norm_num⟩

/-- With 64 byte frames at 95 % and no others, two of the engines pass the assertion for 512. -/
theorem unmeasured_passes :
    MeasuredAt [64] (simulatedResults [64] 95) ∧
      ¬assertUnmeasured.Meets (simulatedResults [64] 95) ∧
      combinedVerdict (some assertUnmeasured) (simulatedResults [64] 95) = .fail ∧
      eachVerdict (some assertUnmeasured) (simulatedResults [64] 95) (simulatedResults [64] 95) =
        .pass ∧
      simulatedVerdict (some assertUnmeasured) [64] 95 = .pass ∧
      ¬VerdictLaw assertUnmeasured [64] := by
  have hmeasured : MeasuredAt [64] (simulatedResults [64] 95) :=
    measuredAt_simulatedResults (by norm_num) (by norm_num)
  have hnot : ¬assertUnmeasured.Meets (simulatedResults [64] 95) := by
    intro hmeets
    obtain ⟨item, hitem, hkey, -⟩ := hmeets ("512", 90) (by decide)
    obtain rfl := List.mem_singleton.mp hitem
    revert hkey
    decide
  have hsimulated : simulatedVerdict (some assertUnmeasured) [64] 95 = .pass := by decide +kernel
  refine ⟨hmeasured, hnot, by decide +kernel, by decide +kernel, hsimulated, fun hlaw => ?_⟩
  have hfail := (hlaw.simulated 95 (by norm_num) (by norm_num)).2 hnot
  rw [hsimulated] at hfail
  simp at hfail

end TrexCli.Rfc2544
