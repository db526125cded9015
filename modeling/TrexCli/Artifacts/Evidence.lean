import TrexCli.Artifacts.TrialLines

/-!
# Trial evidence

The trial records of a measurement, each with its test and its frame size: what `trials.ndjson` is to
hold. The exporter finds the trials of a throughput summary in one place, whatever the directions are;
of a frame loss summary it finds the points under `frames`, and none under `directions`.
-/

namespace TrexCli.Artifacts

open Rfc2544

/-- A trial record of a measurement. -/
structure Evidence where
  test : TestName
  frameSize : Nat
  scenario : Option LatencyScenario
  record : Fields

/-- What a line says of the scenario. -/
def scenarioTag : Option LatencyScenario → Fields
  | none => []
  | some scenario => fieldsOf [("scenario", text scenario.text)]

namespace Evidence

def tags (e : Evidence) : Fields :=
  fieldsOf [("test", text e.test.text), ("frameSize", .int e.frameSize)] ++ scenarioTag e.scenario

/-- The fields of the line of a record: those of the record, and its tags. -/
def line (e : Evidence) : Fields := JsonValue.ofFields (e.record ++ e.tags)

/-- The records of some frame sizes. -/
def ofFrames {α : Type} (test : TestName) (fields : α → Fields) (frames : List (Nat × List α)) :
    List Evidence :=
  frames.flatMap fun frame => frame.2.map fun item => ⟨test, frame.1, none, fields item⟩

/-- The trials of a throughput run, of both directions if there are two. -/
def ofThroughput (summary : ThroughputSummary) : List Evidence :=
  match summary.directions with
  | none => ofFrames .throughput TrialRecord.fields summary.trials
  | some (forward, reverse) => ofFrames .throughput TrialRecord.fields forward.trials ++
      ofFrames .throughput TrialRecord.fields reverse.trials

/-- The points of the curves of a direction. -/
def ofCurves (frames : List (Nat × LossFrame)) : List Evidence :=
  ofFrames .frameLoss LossPoint.fields (frames.map fun frame => (frame.1, frame.2.points))

/-- The points of a frame loss run, of both directions if there are two. -/
def ofFrameLoss (summary : FrameLossSummary) : List Evidence :=
  ofCurves (summary.frames.getD []) ++ match summary.directions with
    | none => []
    | some (forward, reverse) => ofCurves forward ++ ofCurves reverse

/-- The tagged trials of a latency phase. -/
def ofLatency (summary : LatencySummary) : List Evidence :=
  summary.frames.flatMap fun frame => frame.2.flatMap fun scenario =>
    (scenario.2.elim [] LatencyResult.trials).map fun trial =>
      ⟨.latency, frame.1, some scenario.1, trial.fields⟩

/-- The searches of a frame size. -/
def searches : BurstFrame → List BurstSearch
  | .notApplicable _ _ => []
  | .measured result => result.searches

/-- The searches of a back-to-back phase. -/
def ofBackToBack (summary : BackToBackSummary) : List Evidence :=
  ofFrames .backToBack BurstSearch.fields (summary.frames.map fun frame => (frame.1, searches frame.2))

def ofTest : SuiteMeasurement → List Evidence
  | .throughput summary => ofThroughput summary
  | .frameLoss summary => ofFrameLoss summary
  | .latency summary => ofLatency summary
  | .backToBack summary => ofBackToBack summary

/-- The trial records of a measurement. -/
def ofMeasurement : RfcMeasurement → List Evidence
  | .throughput summary => ofThroughput summary
  | .suite _ _ measurements => measurements.flatMap ofTest

end Evidence

/-- The lines are those of the trial records of the measurement, each as often as it was recorded. -/
def EvidenceComplete (measurement : RfcMeasurement) : Prop :=
  ∃ lines, trialLines measurement.summary = .ok lines ∧
    lines.Perm ((Evidence.ofMeasurement measurement).map Evidence.line)

/-! ### Lookups -/

theorem lookup_fieldsOf_append (fields : List (String × JsonValue ℚ)) (rest : Fields) (key : String) :
    JsonValue.lookup (fieldsOf fields ++ rest) key.toList =
      ((fields.find? fun field => field.1 = key).map Prod.snd).or (JsonValue.lookup rest key.toList) := by
  induction fields with
  | nil => rfl
  | cons field fields ih =>
    show JsonValue.lookup ((field.1.toList, field.2) :: (fieldsOf fields ++ rest)) key.toList = _
    by_cases hkey : field.1 = key
    · simp [JsonValue.lookup, hkey]
    · have hne : field.1.toList ≠ key.toList := fun heq => hkey (String.toList_inj.mp heq)
      have hskip : JsonValue.lookup ((field.1.toList, field.2) :: (fieldsOf fields ++ rest)) key.toList
          = JsonValue.lookup (fieldsOf fields ++ rest) key.toList := by
        simp [JsonValue.lookup, hne]
      rw [hskip, ih, List.find?_cons_of_neg (by simpa using hkey)]

theorem lookup_fieldsOf (fields : List (String × JsonValue ℚ)) (key : String) :
    JsonValue.lookup (fieldsOf fields) key.toList =
      (fields.find? fun field => field.1 = key).map Prod.snd := by
  rw [← List.append_nil (fieldsOf fields), lookup_fieldsOf_append]
  simp [JsonValue.lookup]

/-! ### Lines of records -/

/-- The keys of a record differ, and none of them is that of a tag. -/
structure Fresh (record : Fields) : Prop where
  nodup : (record.map Prod.fst).Nodup
  fresh : ∀ key ∈ ["test", "frameSize", "scenario"], key.toList ∉ record.map Prod.fst

theorem TrialRecord.fresh (r : TrialRecord) : Fresh r.fields :=
  ⟨by simp [TrialRecord.fields, fieldsOf], by simp [TrialRecord.fields, fieldsOf]⟩

theorem LossPoint.fresh (p : LossPoint) : Fresh p.fields :=
  ⟨by simp [LossPoint.fields, TrialRecord.fields, fieldsOf],
    by simp [LossPoint.fields, TrialRecord.fields, fieldsOf]⟩

theorem LatencyTrial.fresh (t : LatencyTrial) : Fresh t.fields :=
  ⟨by simp [LatencyTrial.fields, fieldsOf], by simp [LatencyTrial.fields, fieldsOf]⟩

theorem BurstSearch.fresh (search : BurstSearch) : Fresh search.fields := by
  unfold BurstSearch.fields
  split
  · exact ⟨by simp [fieldsOf], by simp [fieldsOf]⟩
  · exact ⟨by simp [fieldsOf], by simp [fieldsOf]⟩

theorem Evidence.map_fst_tags (e : Evidence) : e.tags.map Prod.fst =
    ("test".toList :: "frameSize".toList :: match e.scenario with
      | none => []
      | some _ => ["scenario".toList]) := by
  unfold Evidence.tags
  cases e.scenario <;> simp [fieldsOf, scenarioTag]

/-- The tags may stand before the record. -/
theorem Evidence.ofFields_tags_append {e : Evidence} (h : Fresh e.record) :
    JsonValue.ofFields (e.tags ++ e.record) = e.line := by
  have hkeys : ∀ key ∈ e.tags.map Prod.fst,
      ∃ tag ∈ ["test", "frameSize", "scenario"], key = tag.toList := by
    rw [e.map_fst_tags]
    cases e.scenario <;> simp
  refine JsonValue.ofFields_perm List.perm_append_comm ?_
  rw [List.map_append, List.nodup_append']
  refine ⟨?_, h.nodup, fun key htag hrecord => ?_⟩
  · rw [e.map_fst_tags]
    cases e.scenario <;> simp
  · obtain ⟨tag, hmem, rfl⟩ := hkeys key htag
    exact h.fresh tag hmem hrecord

theorem dictsOf_records {α : Type} (fields : α → Fields) (items : List α) :
    dictsOf (records fields items) = items.map fields := by
  simp [dictsOf, records, List.filterMap_map, List.filterMap_eq_map']

/-- The lines of the records of a frame size. -/
theorem linesOf_records {α : Type} {frameSize : Nat}
    (hsize : frameSizeOf (Text.ofNat frameSize) = .ok frameSize) (test : TestName)
    (scenario : Option LatencyScenario) {fields : α → Fields} (hfresh : ∀ item, Fresh (fields item))
    (items : List α) :
    linesOf test.text (Text.ofNat frameSize) (scenarioTag scenario) (records fields items) =
      .ok (items.map fun item => Evidence.line ⟨test, frameSize, scenario, fields item⟩) := by
  have hmap : (items.map fun item => Evidence.line ⟨test, frameSize, scenario, fields item⟩) =
      (items.map fields).map fun record => Evidence.line ⟨test, frameSize, scenario, record⟩ := by
    rw [List.map_map]
    rfl
  rw [linesOf, dictsOf_records, hmap]
  refine mapM_eq_ok_map fun record hrecord => ?_
  obtain ⟨item, -, rfl⟩ := List.mem_map.mp hrecord
  rw [hsize]
  show Except.ok (JsonValue.ofFields (Evidence.tags ⟨test, frameSize, scenario, fields item⟩ ++ _)) = _
  rw [Evidence.ofFields_tags_append (hfresh item)]

/-- The frame sizes are ones that `int` reads. -/
def Readable {α : Type} (frames : List (Nat × α)) : Prop :=
  ∀ frame ∈ frames, frameSizeOf (Text.ofNat frame.1) = .ok frame.1

/-- The lines of the records of some frame sizes, whose values have them somewhere. -/
theorem mapM_linesOf {α β : Type} {frames : List (Nat × β)} (hsizes : Readable frames) (test : TestName)
    {fields : α → Fields} (hfresh : ∀ item, Fresh (fields item)) (items : β → List α)
    (value : β → JsonValue ℚ) (trials : JsonValue ℚ → JsonValue ℚ)
    (hvalue : ∀ frame ∈ frames, trials (value frame.2) = records fields (items frame.2)) :
    (frames.map fun frame => (Text.ofNat frame.1, value frame.2)).mapM
        (fun entry => linesOf test.text entry.1 [] (trials entry.2)) =
      .ok (frames.map fun frame =>
        (items frame.2).map fun item => Evidence.line ⟨test, frame.1, none, fields item⟩) := by
  rw [List.mapM_map]
  refine mapM_eq_ok_map fun frame hframe => ?_
  show linesOf test.text (Text.ofNat frame.1) (scenarioTag none) (trials (value frame.2)) = _
  rw [hvalue frame hframe]
  exact linesOf_records (hsizes frame hframe) test none hfresh (items frame.2)

theorem flatten_ofFrames {α β : Type} (frames : List (Nat × β)) (test : TestName) (fields : α → Fields)
    (items : β → List α) :
    (frames.map fun frame =>
        (items frame.2).map fun item => Evidence.line ⟨test, frame.1, none, fields item⟩).flatten =
      (Evidence.ofFrames test fields (frames.map fun frame => (frame.1, items frame.2))).map
        Evidence.line := by
  simp [Evidence.ofFrames, List.flatMap_map, List.map_flatMap, List.flatten_eq_flatMap, Function.comp_def]

/-- Values without trials have no lines. -/
theorem mapM_linesOf_null (test : String) {entries : Fields} (trials : JsonValue ℚ → JsonValue ℚ)
    (h : ∀ entry ∈ entries, trials entry.2 = .null) :
    entries.mapM (fun entry => linesOf test entry.1 [] (trials entry.2)) =
      .ok (entries.map fun _ => []) := by
  refine mapM_eq_ok_map fun entry hentry => ?_
  rw [h entry hentry]
  rfl

/-! ### The tests -/

theorem trialLines_of_entries {summary : Fields} {trials points : List (List Fields)}
    (htrials : (entries summary "trials").mapM (fun entry => linesOf "throughput" entry.1 [] entry.2) =
      .ok trials)
    (hpoints : (entries summary "frames").mapM
      (fun entry => linesOf "frame-loss" entry.1 [] (fieldOf entry.2 "points")) = .ok points)
    (htests : entries summary "tests" = []) :
    trialLines summary = .ok (trials.flatten ++ points.flatten) := by
  rw [trialLines, htrials]
  show (_ >>= _ : Except _ _) = _
  rw [hpoints]
  show (testLines (entries summary "tests") >>= _) = _
  rw [htests, testLines]
  show Except.ok _ = _
  rw [List.append_nil]

theorem entries_fieldsOf_append (fields : List (String × JsonValue ℚ)) (rest : Fields) (key : String) :
    entries (fieldsOf fields ++ rest) key = match fields.find? fun field => field.1 = key with
      | some (_, .obj inner) => inner
      | some _ => []
      | none => entries rest key := by
  rw [entries, lookup_fieldsOf_append]
  generalize fields.find? _ = found
  rcases found with _ | ⟨name, value⟩
  · rfl
  · cases value <;> rfl

theorem entries_fieldsOf (fields : List (String × JsonValue ℚ)) (key : String) :
    entries (fieldsOf fields) key = match fields.find? fun field => field.1 = key with
      | some (_, .obj inner) => inner
      | _ => [] := by
  rw [← List.append_nil (fieldsOf fields), entries_fieldsOf_append]
  generalize fields.find? _ = found
  rcases found with _ | ⟨name, value⟩
  · rfl
  · cases value <;> rfl

theorem entries_nil (key : String) : entries [] key = [] := rfl

/-- The fields that a test has besides its summary are none of those that are read. -/
abbrev Ahead (before : List (String × JsonValue ℚ)) : Prop :=
  ∀ key ∈ ["trials", "frames", "tests"], ∀ field ∈ before, field.1 ≠ key

theorem Ahead.entries {before : List (String × JsonValue ℚ)} (h : Ahead before) {key : String}
    (hkey : key ∈ ["trials", "frames", "tests"]) (rest : Fields) :
    entries (fieldsOf before ++ rest) key = entries rest key := by
  have hnone : (before.find? fun field => field.1 = key) = none :=
    List.find?_eq_none.mpr fun field hfield heq => h key hkey field hfield (of_decide_eq_true heq)
  rw [entries_fieldsOf_append, hnone]

theorem fieldsOf_append (fields others : List (String × JsonValue ℚ)) :
    fieldsOf (fields ++ others) = fieldsOf fields ++ fieldsOf others := List.map_append

theorem fieldOf_fieldsOf (fields : List (String × JsonValue ℚ)) (key : String) :
    fieldOf (.obj (fieldsOf fields)) key =
      ((fields.find? fun field => field.1 = key).map Prod.snd).getD .null := by
  rw [← lookup_fieldsOf]
  rfl

theorem ThroughputFrame.fieldOf_points (frame : ThroughputFrame) : fieldOf frame.json "points" = .null := by
  rw [ThroughputFrame.json, FrameRates.fields, ← fieldsOf_append, ← fieldsOf_append, fieldOf_fieldsOf]
  simp

theorem trialLines_throughput {summary : ThroughputSummary} {before : List (String × JsonValue ℚ)}
    (hbefore : Ahead before) (hsizes : Readable summary.trials) :
    trialLines (fieldsOf before ++ summary.fields) =
      .ok ((Evidence.ofFrames .throughput TrialRecord.fields summary.trials).map Evidence.line) := by
  have htrials : entries (fieldsOf before ++ summary.fields) "trials" =
      summary.trials.map fun frame => (Text.ofNat frame.1, records TrialRecord.fields frame.2) := by
    rw [hbefore.entries (by simp), ThroughputSummary.fields, List.append_assoc, entries_fieldsOf_append]
    simp [bySize]
  have hframes : ∀ entry ∈ entries (fieldsOf before ++ summary.fields) "frames",
      fieldOf entry.2 "points" = .null := by
    rw [hbefore.entries (by simp), ThroughputSummary.fields, List.append_assoc, entries_fieldsOf_append]
    cases summary.frames with
    | none =>
      rcases summary.directions with _ | ⟨forward, reverse⟩ <;> simp [entries_fieldsOf, entries_nil]
    | some frames =>
      simp only [entries_fieldsOf_append]
      intro entry hentry
      obtain ⟨frame, -, rfl⟩ : ∃ frame ∈ frames, (Text.ofNat frame.1, frame.2.json) = entry := by
        simpa [bySize] using hentry
      exact ThroughputFrame.fieldOf_points frame.2
  have htests : entries (fieldsOf before ++ summary.fields) "tests" = [] := by
    rw [hbefore.entries (by simp), ThroughputSummary.fields, List.append_assoc, entries_fieldsOf_append]
    cases summary.frames <;> rcases summary.directions with _ | ⟨forward, reverse⟩ <;>
      simp [entries_fieldsOf_append, entries_fieldsOf, entries_nil]
  have hlines := mapM_linesOf hsizes .throughput TrialRecord.fresh id (records TrialRecord.fields) id
    fun _ _ => rfl
  have hnone := mapM_linesOf_null "frame-loss" (fun frame => fieldOf frame "points") hframes
  rw [trialLines_of_entries (htrials ▸ hlines) hnone htests, flatten_ofFrames]
  simp

/-- A frame loss summary has lines for the points under `frames` only. -/
theorem trialLines_frameLoss {summary : FrameLossSummary} {before : List (String × JsonValue ℚ)}
    (hbefore : Ahead before) (hsizes : Readable (summary.frames.getD [])) :
    trialLines (fieldsOf before ++ summary.fields) =
      .ok ((Evidence.ofCurves (summary.frames.getD [])).map Evidence.line) := by
  have htrials : entries (fieldsOf before ++ summary.fields) "trials" = [] := by
    rw [hbefore.entries (by simp), FrameLossSummary.fields, List.append_assoc, entries_fieldsOf_append]
    cases summary.frames <;> rcases summary.directions with _ | ⟨forward, reverse⟩ <;>
      simp [lossFrames, entries_fieldsOf_append, entries_fieldsOf, entries_nil]
  have hframes : entries (fieldsOf before ++ summary.fields) "frames" =
      (summary.frames.getD []).map fun frame => (Text.ofNat frame.1, frame.2.json) := by
    rw [hbefore.entries (by simp), FrameLossSummary.fields, List.append_assoc, entries_fieldsOf_append]
    cases summary.frames <;> rcases summary.directions with _ | ⟨forward, reverse⟩ <;>
      simp [lossFrames, bySize, entries_fieldsOf_append, entries_fieldsOf, entries_nil]
  have htests : entries (fieldsOf before ++ summary.fields) "tests" = [] := by
    rw [hbefore.entries (by simp), FrameLossSummary.fields, List.append_assoc, entries_fieldsOf_append]
    cases summary.frames <;> rcases summary.directions with _ | ⟨forward, reverse⟩ <;>
      simp [lossFrames, entries_fieldsOf_append, entries_fieldsOf, entries_nil]
  have hlines := mapM_linesOf hsizes .frameLoss LossPoint.fresh LossFrame.points LossFrame.json
    (fun frame => fieldOf frame "points") fun frame _ => by
      rw [LossFrame.json, fieldOf_fieldsOf]
      simp
  have hnone : (entries (fieldsOf before ++ summary.fields) "trials").mapM
      (fun entry => linesOf "throughput" entry.1 [] entry.2) = .ok [] := by
    rw [htrials]
    rfl
  rw [trialLines_of_entries hnone (hframes ▸ hlines) htests, flatten_ofFrames]
  rfl

theorem LatencyResult.fieldOf_trials (result : Option LatencyResult) :
    fieldOf (LatencyResult.json result) "trials" =
      records LatencyTrial.fields (result.elim [] LatencyResult.trials) := by
  cases result with
  | none =>
    rw [LatencyResult.json, fieldOf_fieldsOf]
    simp [records]
  | some result =>
    rw [LatencyResult.json, fieldOf_fieldsOf]
    simp

theorem latencyTrialLines_latency {summary : LatencySummary} {before : List (String × JsonValue ℚ)}
    (hbefore : Ahead before) (hsizes : Readable summary.frames) :
    latencyTrialLines (fieldsOf before ++ summary.fields) =
      .ok ((Evidence.ofLatency summary).map Evidence.line) := by
  have hframes : entries (fieldsOf before ++ summary.fields) "frames" =
      summary.frames.map fun frame => (Text.ofNat frame.1, LatencyFrame.json frame.2) := by
    rw [hbefore.entries (by simp), LatencySummary.fields, entries_fieldsOf_append]
    simp [bySize]
  have hlines : ∀ frame ∈ summary.frames,
      ((latencyTrialLines.scenarios (LatencyFrame.json frame.2)).mapM fun entry =>
        linesOf "latency" (Text.ofNat frame.1) (fieldsOf [("scenario", .str entry.1)])
          (fieldOf entry.2 "trials")) =
        .ok (frame.2.map fun scenario => (scenario.2.elim [] LatencyResult.trials).map fun trial =>
          Evidence.line ⟨.latency, frame.1, some scenario.1, trial.fields⟩) := by
    intro frame hframe
    show ((fieldsOf (frame.2.map _)).mapM _ : Except Exc _) = _
    rw [fieldsOf, List.map_map, List.mapM_map]
    refine mapM_eq_ok_map fun scenario _ => ?_
    have hrecords := linesOf_records (hsizes frame hframe) .latency (some scenario.1) LatencyTrial.fresh
      (scenario.2.elim [] LatencyResult.trials)
    rw [← LatencyResult.fieldOf_trials] at hrecords
    exact hrecords
  rw [latencyTrialLines, hframes, List.mapM_map]
  refine bind_eq_ok.mpr ⟨summary.frames.map fun frame =>
    (frame.2.map fun scenario => (scenario.2.elim [] LatencyResult.trials).map fun trial =>
      Evidence.line ⟨.latency, frame.1, some scenario.1, trial.fields⟩).flatten, ?_, ?_⟩
  · exact mapM_eq_ok_map fun frame hframe => bind_eq_ok.mpr ⟨_, hlines frame hframe, rfl⟩
  · show Except.ok _ = _
    simp [Evidence.ofLatency, List.map_flatMap, List.flatten_eq_flatMap, List.flatMap_map,
      Function.comp_def]

theorem BurstFrame.fieldOf_searches (frame : BurstFrame) :
    fieldOf frame.json "searches" = records BurstSearch.fields (Evidence.searches frame) := by
  cases frame with
  | notApplicable throughputFps theoreticalMaxFps =>
    rw [BurstFrame.json, fieldOf_fieldsOf]
    simp [records, Evidence.searches]
  | measured result =>
    rw [BurstFrame.json, fieldOf_fieldsOf]
    simp [Evidence.searches]

theorem backToBackTrialLines_backToBack {summary : BackToBackSummary}
    {before : List (String × JsonValue ℚ)} (hbefore : Ahead before) (hsizes : Readable summary.frames) :
    backToBackTrialLines (fieldsOf before ++ summary.fields) =
      .ok ((Evidence.ofBackToBack summary).map Evidence.line) := by
  have hframes : entries (fieldsOf before ++ summary.fields) "frames" =
      summary.frames.map fun frame => (Text.ofNat frame.1, frame.2.json) := by
    rw [hbefore.entries (by simp), BackToBackSummary.fields, entries_fieldsOf]
    simp [bySize]
  have hlines := mapM_linesOf hsizes .backToBack BurstSearch.fresh Evidence.searches BurstFrame.json
    (fun frame => fieldOf frame "searches") fun frame _ => BurstFrame.fieldOf_searches frame.2
  rw [backToBackTrialLines, hframes]
  refine bind_eq_ok.mpr ⟨_, hlines, ?_⟩
  show Except.ok _ = _
  rw [flatten_ofFrames]
  rfl

/-! ### Suites -/

/-- The records that have a line. -/
def exported : SuiteMeasurement → List Evidence
  | .throughput summary => Evidence.ofFrames .throughput TrialRecord.fields summary.trials
  | .frameLoss summary => Evidence.ofCurves (summary.frames.getD [])
  | .latency summary => Evidence.ofLatency summary
  | .backToBack summary => Evidence.ofBackToBack summary

/-- The frame sizes of a test are ones that `int` reads. -/
def ReadableTest : SuiteMeasurement → Prop
  | .throughput summary => Readable summary.trials
  | .frameLoss summary => Readable (summary.frames.getD [])
  | .latency summary => Readable summary.frames
  | .backToBack summary => Readable summary.frames

theorem testLines_cons {measurement : SuiteMeasurement} (h : ReadableTest measurement) {tests : Fields}
    {lines : List Fields} (htests : testLines tests = .ok lines) :
    testLines ((measurement.name.text.toList, measurement.json) :: tests) =
      .ok ((exported measurement).map Evidence.line ++ lines) := by
  have hbefore : Ahead [("methodology", text measurement.methodology),
      ("verdict", text measurement.verdict.text)] := by
    intro key hkey field hfield
    simp only [List.mem_cons, List.not_mem_nil, or_false] at hkey hfield
    rcases hfield with rfl | rfl <;> rcases hkey with rfl | rfl | rfl <;> simp
  rw [SuiteMeasurement.json, testLines, bind_eq_ok]
  refine ⟨_, ?_, bind_eq_ok.mpr ⟨_, htests, rfl⟩⟩
  rw [namedLines]
  cases measurement with
  | throughput summary =>
    rw [if_neg (by simp [SuiteMeasurement.name, TestName.text]),
      if_neg (by simp [SuiteMeasurement.name, TestName.text])]
    exact trialLines_throughput hbefore h
  | frameLoss summary =>
    rw [if_neg (by simp [SuiteMeasurement.name, TestName.text]),
      if_neg (by simp [SuiteMeasurement.name, TestName.text])]
    exact trialLines_frameLoss hbefore h
  | latency summary =>
    rw [if_pos (by simp [SuiteMeasurement.name, TestName.text])]
    exact latencyTrialLines_latency hbefore h
  | backToBack summary =>
    rw [if_neg (by simp [SuiteMeasurement.name, TestName.text]), if_pos (by simp [SuiteMeasurement.name, TestName.text])]
    exact backToBackTrialLines_backToBack hbefore h

theorem testLines_measurements {measurements : List SuiteMeasurement}
    (h : ∀ measurement ∈ measurements, ReadableTest measurement) :
    testLines (fieldsOf (measurements.map fun measurement =>
      (measurement.name.text, measurement.json))) =
      .ok ((measurements.flatMap exported).map Evidence.line) := by
  induction measurements with
  | nil =>
    show testLines [] = _
    rw [testLines]
    rfl
  | cons measurement measurements ih =>
    obtain ⟨hfirst, hrest⟩ := List.forall_mem_cons.mp h
    rw [List.flatMap_cons, List.map_append]
    exact testLines_cons hfirst (ih hrest)

theorem trialLines_suite {mode : Mode} {verdict : Verdict} {measurements : List SuiteMeasurement}
    (h : ∀ measurement ∈ measurements, ReadableTest measurement) :
    trialLines (RfcMeasurement.suite mode verdict measurements).summary =
      .ok ((measurements.flatMap exported).map Evidence.line) := by
  have hnone : ∀ key ∈ ["trials", "frames"],
      entries (RfcMeasurement.suite mode verdict measurements).summary key = [] := by
    intro key hkey
    rw [RfcMeasurement.summary, entries_fieldsOf]
    simp only [List.mem_cons, List.not_mem_nil, or_false] at hkey
    rcases hkey with rfl | rfl <;> simp
  have htests : entries (RfcMeasurement.suite mode verdict measurements).summary "tests" =
      fieldsOf (measurements.map fun measurement => (measurement.name.text, measurement.json)) := by
    rw [RfcMeasurement.summary, entries_fieldsOf]
    simp
  rw [trialLines, hnone "trials" (by simp), hnone "frames" (by simp), htests, testLines_measurements h]
  rfl

end TrexCli.Artifacts
