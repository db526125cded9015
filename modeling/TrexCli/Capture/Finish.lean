import TrexCli.Capture.Digests

/-!
# What `finish` reports

The steps of `finish`, each with what its success says: the analyses of the flows, the entries that
count the flows with one template digest, and the templates of the entries.
-/

namespace TrexCli.Capture

variable {sha256 : Bytes → Digest} {s : DatagramSettings} {a : DatagramFlowAnalyzer}

theorem perm_sortById {α : Type} (id : α → Nat) (items : List α) : (sortById id items).Perm items :=
  List.perm_insertionSort _ _

theorem map_eq_ok {ε α β : Type} {f : α → β} {m : Except ε α} {b : β} :
    f <$> m = .ok b ↔ ∃ a, m = .ok a ∧ f a = b := by
  cases m with
  | error e => simp [Functor.map, Except.map]
  | ok a => simp [Functor.map, Except.map]

theorem exists_mapM {ε α β : Type} {f : α → Except ε β} {xs : List α}
    (h : ∀ x ∈ xs, ∃ y, f x = .ok y) : ∃ ys, xs.mapM f = .ok ys := by
  simp only [mapM_eq_ok]
  induction xs with
  | nil => exact ⟨[], .nil⟩
  | cons x xs ih =>
    obtain ⟨y, hy⟩ := h x List.mem_cons_self
    obtain ⟨ys, hys⟩ := ih fun x' hx' => h x' (List.mem_cons_of_mem _ hx')
    exact ⟨y :: ys, .cons hy hys⟩

/-- The octets of template digests that are compared have no collision. -/
def CollisionFree (sha256 : Bytes → Digest) (flows : List DatagramFlow) : Prop :=
  Set.InjOn sha256 {octets | ∃ flow ∈ flows, flow.templateOctets = .ok octets}

namespace DatagramFlow

variable {flow : DatagramFlow} {analysis : CapturedDatagramFlowAnalysis}

theorem l1Bytes_pos (h : flow.datagrams ≠ []) : 1 ≤ flow.l1Bytes := by
  obtain ⟨item, rest, heq⟩ := List.exists_cons_of_ne_nil h
  rw [l1Bytes, heq, List.map_cons, List.sum_cons]
  omega

/-- A flow can be analyzed. -/
structure Representable (flow : DatagramFlow) : Prop where
  encodable : ∀ item ∈ flow.datagrams, item.Encodable
  initiator : flow.initiator.2 ≠ 0
  responder : flow.responder.2 ≠ 0
  nonempty : flow.datagrams ≠ []

instance (flow : DatagramFlow) : Decidable flow.Representable :=
  decidable_of_iff ((∀ item ∈ flow.datagrams, item.Encodable) ∧ flow.initiator.2 ≠ 0 ∧
      flow.responder.2 ≠ 0 ∧ flow.datagrams ≠ [])
    ⟨fun ⟨h₁, h₂, h₃, h₄⟩ => ⟨h₁, h₂, h₃, h₄⟩, fun ⟨h₁, h₂, h₃, h₄⟩ => ⟨h₁, h₂, h₃, h₄⟩⟩

theorem port_valid {p : UInt16} : 1 ≤ p.toNat ∧ p.toNat ≤ 65535 ↔ p ≠ 0 := by
  have hlt := p.toNat_lt
  rw [Ne, ← UInt16.toNat_inj, UInt16.toNat_zero]
  omega

theorem analysis_eq_ok (h : flow.analysis sha256 = .ok analysis) :
    flow.Representable ∧ flow.flowDigest sha256 = .ok analysis.digest ∧
      analysis.id = analysis.digest.short ∧ analysis.issues = flow.issues ∧
      (analysis.replayable ↔ flow.issues = []) := by
  simp only [DatagramFlow.analysis, bind_eq_ok, validated_eq_ok, DatagramEndpoint.build,
    port_valid] at h
  obtain ⟨digest, hdigest, initiator, ⟨hinitiator, -⟩, responder, ⟨hresponder, -⟩,
    ⟨hcount, hl1⟩, rfl⟩ := h
  obtain ⟨octets, hoctets, -⟩ := map_eq_ok.mp hdigest
  have hne : flow.datagrams ≠ [] := List.ne_nil_of_length_pos hcount
  refine ⟨⟨(flowOctets_eq_ok.mp hoctets).1, hinitiator, hresponder, hne⟩, hdigest, rfl, rfl, ?_⟩
  simp [hne]

/-- A representable flow is analyzed. -/
theorem Representable.exists_analysis (h : flow.Representable) :
    ∃ analysis, flow.analysis sha256 = .ok analysis := by
  have hdigest := flowOctets_eq_ok.mpr ⟨h.encodable, rfl⟩
  simp only [DatagramFlow.analysis, bind_eq_ok, validated_eq_ok, DatagramEndpoint.build, port_valid]
  exact ⟨_, _, map_eq_ok.mpr ⟨_, hdigest, rfl⟩, _, ⟨h.initiator, rfl⟩, _, ⟨h.responder, rfl⟩,
    ⟨List.length_pos_of_ne_nil h.nonempty, l1Bytes_pos h.nonempty⟩, rfl⟩

/-- A representable flow has a template digest. -/
theorem Representable.exists_digest (h : flow.Representable) :
    ∃ digest, flow.templateDigest sha256 = .ok digest :=
  ⟨_, map_eq_ok.mpr ⟨_, templateOctets_eq_ok.mpr ⟨h.encodable, rfl⟩, rfl⟩⟩

/-- Flows with the same template digest have the same datagrams. -/
theorem datagrams_eq_of_digest {flows : List DatagramFlow} (hsha : CollisionFree sha256 flows)
    {f g : DatagramFlow} {digest : Digest} (hf : f ∈ flows) (hg : g ∈ flows)
    (hfd : f.templateDigest sha256 = .ok digest) (hgd : g.templateDigest sha256 = .ok digest) :
    f.datagrams = g.datagrams := by
  obtain ⟨octets, hfo, hfe⟩ := map_eq_ok.mp hfd
  obtain ⟨octets', hgo, hge⟩ := map_eq_ok.mp hgd
  obtain rfl : octets = octets' := hsha ⟨f, hf, hfo⟩ ⟨g, hg, hgo⟩ (hfe.trans hge.symm)
  exact (templateOctets_inj hfo hgo).2

end DatagramFlow

/-! ### Analyses of all flows -/

/-- A flow with its analysis. -/
def Analyzed (sha256 : Bytes → Digest) (p : DatagramFlow × CapturedDatagramFlowAnalysis) : Prop :=
  p.1.analysis sha256 = .ok p.2

theorem analyzed_eq_ok {analyzed : List (DatagramFlow × CapturedDatagramFlowAnalysis)}
    (h : a.analyzed sha256 = .ok analyzed) :
    (analyzed.map Prod.fst).Perm a.flows ∧ ∀ p ∈ analyzed, Analyzed sha256 p := by
  simp only [DatagramFlowAnalyzer.analyzed, bind_eq_ok, mapM_eq_ok] at h
  obtain ⟨pairs, hpairs, heq⟩ := h
  obtain rfl := Except.ok.inj heq
  have hpair : List.Forall₂ (fun flow p => p.1 = flow ∧ Analyzed sha256 p) a.flows pairs := by
    refine hpairs.imp fun flow p hp => ?_
    obtain ⟨analysis, hanalysis, hp⟩ := hp
    obtain rfl := Except.ok.inj hp
    exact ⟨rfl, hanalysis⟩
  constructor
  · refine ((perm_sortById _ _).map _).trans (List.Perm.of_eq ?_)
    have hflows := List.forall₂_map_right_iff.mpr (hpair.imp fun _ _ h => h.1.symm)
    rw [List.forall₂_eq_eq_eq] at hflows
    exact hflows.symm
  · intro p hp
    obtain ⟨flow, -, -, hanalysis⟩ := exists_left_of_forall₂ hpair ((perm_sortById _ _).mem_iff.mp hp)
    exact hanalysis

theorem exists_analyzed (h : ∀ flow ∈ a.flows, flow.Representable) :
    ∃ analyzed, a.analyzed sha256 = .ok analyzed := by
  have hpairs : ∃ pairs, a.flows.mapM (fun flow => do
      let analysis ← flow.analysis sha256
      pure (flow, analysis)) = Except.ok pairs := by
    refine exists_mapM fun flow hflow => ?_
    obtain ⟨analysis, hanalysis⟩ := (h flow hflow).exists_analysis
    exact ⟨(flow, analysis), bind_eq_ok.mpr ⟨analysis, hanalysis, rfl⟩⟩
  obtain ⟨pairs, hpairs⟩ := hpairs
  exact ⟨_, bind_eq_ok.mpr ⟨pairs, hpairs, rfl⟩⟩

/-! ### Entries -/

/-- What holds of the entries of `templates` while it is filled. -/
structure Entries (sha256 : Bytes → Digest)
    (analyzed : List (DatagramFlow × CapturedDatagramFlowAnalysis)) (templates : List TemplateEntry) :
    Prop where
  nodup : (templates.map TemplateEntry.digest).Nodup
  digests : ∀ e ∈ templates, e.flow.templateDigest sha256 = .ok e.digest
  mem : ∀ e ∈ templates, (e.flow, e.analysis) ∈ analyzed
  counted : ∀ e ∈ templates, 1 ≤ e.count

/-- The datagrams that the entries account for. -/
def load (templates : List TemplateEntry) : Nat :=
  (templates.map fun e => e.count * e.flow.datagrams.length).sum

section Entries

variable {analyzed items : List (DatagramFlow × CapturedDatagramFlowAnalysis)}
  {templates result : List TemplateEntry} {digest : Digest} {flow : DatagramFlow}
  {analysis : CapturedDatagramFlowAnalysis}

theorem mem_countTemplate {e : TemplateEntry}
    (h : e ∈ countTemplate templates digest flow analysis) :
    e = ⟨digest, flow, analysis, 1⟩ ∨ ∃ e' ∈ templates,
      e.digest = e'.digest ∧ e.flow = e'.flow ∧ e.analysis = e'.analysis ∧ e'.count ≤ e.count := by
  unfold countTemplate at h
  split at h
  · obtain ⟨e', he', heq⟩ := List.mem_map.mp h
    right
    refine ⟨e', he', ?_⟩
    split at heq <;> rw [← heq]
    · exact ⟨rfl, rfl, rfl, Nat.le_succ _⟩
    · exact ⟨rfl, rfl, rfl, le_rfl⟩
  · rcases List.mem_append.mp h with h | h
    · exact .inr ⟨e, h, rfl, rfl, rfl, le_rfl⟩
    · exact .inl (List.mem_singleton.mp h)

theorem Entries.count (h : Entries sha256 analyzed templates) (hmem : (flow, analysis) ∈ analyzed)
    (hdigest : flow.templateDigest sha256 = .ok digest) :
    Entries sha256 analyzed (countTemplate templates digest flow analysis) := by
  refine ⟨?_, fun e he => ?_, fun e he => ?_, fun e he => ?_⟩
  · unfold countTemplate
    split
    · rw [List.map_map, show TemplateEntry.digest ∘ _ = TemplateEntry.digest from funext fun e => by
        rw [Function.comp_apply]
        split <;> rfl]
      exact h.nodup
    · rename_i hany
      rw [List.map_append, List.nodup_append]
      refine ⟨h.nodup, List.nodup_singleton _, ?_⟩
      intro d hd d' hd' heq
      obtain ⟨e, he, rfl⟩ := List.mem_map.mp hd
      refine hany (List.any_eq_true.mpr ⟨e, he, ?_⟩)
      rw [heq, List.mem_singleton.mp hd']
      exact decide_eq_true rfl
  · rcases mem_countTemplate he with rfl | ⟨e', he', hd, hf, -, -⟩
    · exact hdigest
    · rw [hd, hf]
      exact h.digests e' he'
  · rcases mem_countTemplate he with rfl | ⟨e', he', -, hf, ha, -⟩
    · exact hmem
    · rw [hf, ha]
      exact h.mem e' he'
  · rcases mem_countTemplate he with rfl | ⟨e', he', -, -, -, hc⟩
    · exact le_rfl
    · exact (h.counted e' he').trans hc

/-- One of the entries, whose digests differ, counts one more flow. -/
theorem load_increment (hnodup : (templates.map TemplateEntry.digest).Nodup) {e : TemplateEntry}
    (he : e ∈ templates) :
    load (templates.map fun entry =>
      if entry.digest = e.digest then { entry with count := entry.count + 1 } else entry) =
      load templates + e.flow.datagrams.length := by
  induction templates with
  | nil => exact absurd he List.not_mem_nil
  | cons head rest ih =>
    rw [List.map_cons, List.nodup_cons] at hnodup
    obtain ⟨hhead, hrest⟩ := hnodup
    simp only [load, List.map_cons, List.sum_cons] at ih ⊢
    rcases List.mem_cons.mp he with rfl | he
    · rw [if_pos rfl]
      have hsame : (rest.map fun entry =>
          if entry.digest = e.digest then { entry with count := entry.count + 1 } else entry) =
          rest := by
        refine (List.map_congr_left fun entry hentry => if_neg fun heq => hhead ?_).trans
          (List.map_id' rest)
        rw [← heq]
        exact List.mem_map_of_mem hentry
      rw [hsame]
      dsimp only
      rw [Nat.add_mul, Nat.one_mul]
      omega
    · have hne : head.digest ≠ e.digest := fun heq => hhead (heq ▸ List.mem_map_of_mem he)
      rw [if_neg hne, ih hrest he]
      omega

/-- A flow adds its datagrams to what the entries account for. -/
theorem Entries.load_count (h : Entries sha256 analyzed templates)
    (hsha : CollisionFree sha256 (analyzed.map Prod.fst)) (hmem : (flow, analysis) ∈ analyzed)
    (hdigest : flow.templateDigest sha256 = .ok digest) :
    load (countTemplate templates digest flow analysis) =
      load templates + flow.datagrams.length := by
  unfold countTemplate
  split
  · rename_i hany
    obtain ⟨e, he, heq⟩ := List.any_eq_true.mp hany
    obtain rfl : e.digest = digest := of_decide_eq_true heq
    rw [load_increment h.nodup he, DatagramFlow.datagrams_eq_of_digest hsha
      (List.mem_map_of_mem (h.mem e he)) (List.mem_map_of_mem hmem) (h.digests e he) hdigest]
  · simp [load]

/-- The datagrams of the replayable flows. -/
def replayableLoad (items : List (DatagramFlow × CapturedDatagramFlowAnalysis)) : Nat :=
  ((items.filter fun p => p.2.replayable).map fun p => p.1.datagrams.length).sum

theorem tally_eq_ok (h : Entries sha256 analyzed templates) (hitems : ∀ p ∈ items, p ∈ analyzed)
    (htally : tally sha256 templates items = .ok result) :
    Entries sha256 analyzed result ∧ (CollisionFree sha256 (analyzed.map Prod.fst) →
      load result = load templates + replayableLoad items) := by
  induction items generalizing templates with
  | nil =>
    obtain rfl := Except.ok.inj htally
    exact ⟨h, fun _ => rfl⟩
  | cons p items ih =>
    obtain ⟨flow, analysis⟩ := p
    have hmem := hitems _ List.mem_cons_self
    have hrest : ∀ p ∈ items, p ∈ analyzed := fun p hp => hitems p (List.mem_cons_of_mem _ hp)
    unfold tally at htally
    by_cases hreplayable : analysis.replayable = true
    · rw [if_pos hreplayable] at htally
      obtain ⟨digest, hdigest, htally⟩ := bind_eq_ok.mp htally
      obtain ⟨hentries, hload⟩ := ih (h.count hmem hdigest) hrest htally
      refine ⟨hentries, fun hsha => ?_⟩
      rw [hload hsha, h.load_count hsha hmem hdigest]
      simp [replayableLoad, hreplayable, Nat.add_assoc]
    · rw [if_neg hreplayable] at htally
      obtain ⟨hentries, hload⟩ := ih h hrest htally
      refine ⟨hentries, fun hsha => ?_⟩
      rw [hload hsha]
      simp [replayableLoad, hreplayable]

theorem exists_tally (h : ∀ p ∈ items, p.1.Representable) :
    ∃ result, tally sha256 templates items = .ok result := by
  induction items generalizing templates with
  | nil => exact ⟨templates, rfl⟩
  | cons p items ih =>
    obtain ⟨flow, analysis⟩ := p
    have hrest := fun p hp => h p (List.mem_cons_of_mem _ hp)
    unfold tally
    by_cases hreplayable : analysis.replayable = true
    · obtain ⟨digest, hdigest⟩ := (h _ List.mem_cons_self).exists_digest
      obtain ⟨result, hresult⟩ := @ih (countTemplate templates digest flow analysis) hrest
      rw [if_pos hreplayable]
      exact ⟨result, bind_eq_ok.mpr ⟨digest, hdigest, hresult⟩⟩
    · rw [if_neg hreplayable]
      exact ih hrest

end Entries

/-! ### The report -/

/-- The steps of a `finish` that reports something. -/
structure Finished (sha256 : Bytes → Digest) (s : DatagramSettings) (a : DatagramFlowAnalyzer)
    (analysis : DatagramCaptureAnalysis) : Prop where
  steps : ∃ analyzed templates unordered,
    a.analyzed sha256 = .ok analyzed ∧ tally sha256 [] analyzed = .ok templates ∧
    List.Forall₂ (fun entry template => TemplateEntry.template entry = .ok template)
      templates unordered ∧
    (analysis.workloadComplete = true ↔ a.omittedUdpPacketCount = 0 ∧
      (∀ item ∈ analyzed, item.2.replayable = true) ∧
      unordered.length ≤ s.maximumWorkloadTemplates ∧
      (unordered.map fun item => item.datagramCount).sum ≤ s.maximumWorkloadDatagrams) ∧
    analysis.workloadTemplates =
      (sortById (fun item => item.id) unordered).take s.maximumWorkloadTemplates ∧
    analysis.flows = (reportOrder
      (analysis.workloadTemplates.map fun item => item.representativeFlowId)
      (analyzed.map fun item => item.2)).take s.maximumReportedFlows

theorem finished_of_finish {analysis : DatagramCaptureAnalysis}
    (h : a.finish sha256 s = .ok (some analysis)) : Finished sha256 s a analysis := by
  unfold DatagramFlowAnalyzer.finish at h
  split at h
  · exact absurd h (by simp)
  · simp only [bind_eq_ok, mapM_eq_ok, validated_eq_ok] at h
    obtain ⟨analyzed, hanalyzed, templates, htemplates, unordered, hunordered, _, ⟨hidle, rfl⟩,
      heq⟩ := h
    obtain rfl := Option.some.inj (Except.ok.inj heq)
    refine ⟨analyzed, templates, unordered, hanalyzed, htemplates, hunordered, ?_, rfl, rfl⟩
    simp [(perm_sortById _ _).length_eq, ((perm_sortById _ _).map _).sum_eq, and_assoc]

theorem entries_nil (sha256 : Bytes → Digest)
    (analyzed : List (DatagramFlow × CapturedDatagramFlowAnalysis)) : Entries sha256 analyzed [] :=
  ⟨List.nodup_nil, by simp, by simp, by simp⟩

/-- The entry of a representable flow has a template. -/
theorem TemplateEntry.exists_template {entry : TemplateEntry} (h : entry.flow.Representable)
    (hcount : 1 ≤ entry.count) : ∃ template, entry.template = .ok template := by
  obtain ⟨hlow, hhigh⟩ := DatagramFlow.port_valid.mpr h.responder
  simp only [TemplateEntry.template, validated_eq_ok]
  exact ⟨_, ⟨hlow, hhigh, List.length_pos_of_ne_nil h.nonempty, DatagramFlow.l1Bytes_pos h.nonempty,
    hcount⟩, rfl⟩

/-- `finish` returns exactly when every flow can be represented. -/
theorem finish_ok_iff : (∃ result, a.finish sha256 s = .ok result) ↔
    a.flows = [] ∧ a.omittedUdpPacketCount = 0 ∨
      0 < s.idleTimeoutSeconds ∧ ∀ flow ∈ a.flows, flow.Representable := by
  unfold DatagramFlowAnalyzer.finish
  by_cases hnone : a.flows = [] ∧ a.omittedUdpPacketCount = 0
  · rw [if_pos hnone]
    exact ⟨fun _ => .inl hnone, fun _ => ⟨_, rfl⟩⟩
  · rw [if_neg hnone, or_iff_right hnone]
    constructor
    · rintro ⟨result, h⟩
      simp only [bind_eq_ok, validated_eq_ok] at h
      obtain ⟨analyzed, hanalyzed, -, -, -, -, -, ⟨hidle, -⟩, -⟩ := h
      refine ⟨hidle, fun flow hflow => ?_⟩
      obtain ⟨hperm, hpairs⟩ := analyzed_eq_ok hanalyzed
      obtain ⟨p, hp, rfl⟩ := List.mem_map.mp (hperm.mem_iff.mpr hflow)
      exact (DatagramFlow.analysis_eq_ok (hpairs p hp)).1
    · rintro ⟨hidle, hflows⟩
      obtain ⟨analyzed, hanalyzed⟩ := exists_analyzed hflows
      obtain ⟨hperm, hpairs⟩ := analyzed_eq_ok hanalyzed
      have hitems : ∀ p ∈ analyzed, p.1.Representable := fun p hp =>
        hflows p.1 (hperm.mem_iff.mp (List.mem_map_of_mem hp))
      obtain ⟨templates, htemplates⟩ := exists_tally hitems
      have hentries := (tally_eq_ok (entries_nil sha256 analyzed) (fun _ hp => hp) htemplates).1
      obtain ⟨unordered, hunordered⟩ := exists_mapM
        fun entry hentry => TemplateEntry.exists_template (hitems _ (hentries.mem entry hentry))
          (hentries.counted entry hentry)
      simp only [bind_eq_ok, validated_eq_ok]
      exact ⟨_, analyzed, hanalyzed, templates, htemplates, unordered, hunordered, _, ⟨hidle, rfl⟩,
        rfl⟩

/-- `finish` reports something when there is a flow. -/
theorem exists_report (h : ∀ flow ∈ a.flows, flow.Representable) (hne : a.flows ≠ [])
    (hidle : 0 < s.idleTimeoutSeconds) :
    ∃ analysis, a.finish sha256 s = .ok (some analysis) := by
  obtain ⟨result, hresult⟩ := (@finish_ok_iff sha256 s a).mpr (.inr ⟨hidle, h⟩)
  match result, hresult with
  | some analysis, hresult => exact ⟨analysis, hresult⟩
  | none, hresult =>
    unfold DatagramFlowAnalyzer.finish at hresult
    rw [if_neg fun hnone => hne hnone.1] at hresult
    simp only [bind_eq_ok] at hresult
    obtain ⟨_, -, _, -, _, -, _, -, hsome⟩ := hresult
    exact absurd (Except.ok.inj hsome) (by simp)

end TrexCli.Capture
