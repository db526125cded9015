import TrexCli.Capture.Conservation

/-!
# The flows that are reported

An id is a hash of the two endpoints and the datagrams of a flow, so flows have one id when one
exchange recurs after the idle timeout. The representatives stand first in a list that is then cut: as
long as no exchange recurs, there are no more of them than templates, and none is cut off.
-/

namespace TrexCli.Capture

variable {sha256 : Bytes → Digest} {s : DatagramSettings}

/-- The octets of flow digests have no collision in the ids. -/
def IdCollisionFree (sha256 : Bytes → Digest) (flows : List DatagramFlow) : Prop :=
  Set.InjOn (fun octets => (sha256 octets).short) {octets | ∃ flow ∈ flows, flow.flowOctets = .ok octets}

/-- Who talks to whom, and what they say when. -/
def DatagramFlow.exchange (flow : DatagramFlow) : Endpoint × Endpoint × List Datagram :=
  (flow.initiator, flow.responder, flow.datagrams)

/-- No exchange recurs. -/
def NoRecurrence (flows : List DatagramFlow) : Prop := (flows.map DatagramFlow.exchange).Nodup

/-- Analyzed flows have one id exactly when they are one exchange. -/
theorem id_eq_iff {flows : List DatagramFlow} (hsha : IdCollisionFree sha256 flows)
    {p q : DatagramFlow × CapturedDatagramFlowAnalysis} (hp : p.1 ∈ flows) (hq : q.1 ∈ flows)
    (hpa : Analyzed sha256 p) (hqa : Analyzed sha256 q) :
    p.2.id = q.2.id ↔ p.1.exchange = q.1.exchange := by
  obtain ⟨-, hpd, hpid, -, -⟩ := DatagramFlow.analysis_eq_ok hpa
  obtain ⟨-, hqd, hqid, -, -⟩ := DatagramFlow.analysis_eq_ok hqa
  obtain ⟨octets, hpo, hpe⟩ := map_eq_ok.mp hpd
  obtain ⟨octets', hqo, hqe⟩ := map_eq_ok.mp hqd
  constructor
  · intro hid
    have hshort : (sha256 octets).short = (sha256 octets').short := by
      rw [hpe, hqe, ← hpid, ← hqid, hid]
    obtain rfl : octets = octets' := hsha ⟨p.1, hp, hpo⟩ ⟨q.1, hq, hqo⟩ hshort
    obtain ⟨hinitiator, hresponder, hdatagrams⟩ := DatagramFlow.flowOctets_inj hpo hqo
    rw [DatagramFlow.exchange, DatagramFlow.exchange, hinitiator, hresponder, hdatagrams]
  · intro hexchange
    obtain ⟨hinitiator, hresponder, hdatagrams⟩ : p.1.initiator = q.1.initiator ∧
        p.1.responder = q.1.responder ∧ p.1.datagrams = q.1.datagrams := by
      simpa [DatagramFlow.exchange] using hexchange
    have hoctets : p.1.flowOctets = q.1.flowOctets := by
      unfold DatagramFlow.flowOctets
      rw [hinitiator, hresponder, hdatagrams]
    rw [hpo, hqo] at hoctets
    rw [hpid, hqid, ← hpe, ← hqe, Except.ok.inj hoctets]

/-- The elements of a list differ under two functions that tell the same of them apart. -/
theorem nodup_map_congr {α β γ : Type} {f : α → β} {g : α → γ} {xs : List α}
    (h : ∀ x ∈ xs, ∀ y ∈ xs, (f x = f y ↔ g x = g y)) : (xs.map f).Nodup ↔ (xs.map g).Nodup := by
  simp only [List.Nodup, List.pairwise_map]
  constructor
  · intro hf
    exact hf.imp_of_mem fun hx hy hne heq => hne ((h _ hx _ hy).mpr heq)
  · intro hg
    exact hg.imp_of_mem fun hx hy hne heq => hne ((h _ hx _ hy).mp heq)

section Report

variable {a : DatagramFlowAnalyzer} {analysis : DatagramCaptureAnalysis}
  {analyzed : List (DatagramFlow × CapturedDatagramFlowAnalysis)}

/-- The ids are distinct exactly when no exchange recurs. -/
theorem nodup_ids_iff (hsha : IdCollisionFree sha256 a.flows)
    (h : a.analyzed sha256 = .ok analyzed) :
    (analyzed.map fun p => p.2.id).Nodup ↔ NoRecurrence a.flows := by
  obtain ⟨hperm, hpairs⟩ := analyzed_eq_ok h
  have hexchanges : (analyzed.map fun p => p.1.exchange).Perm (a.flows.map DatagramFlow.exchange) := by
    simpa [List.map_map, Function.comp_def] using hperm.map DatagramFlow.exchange
  rw [NoRecurrence, ← hexchanges.nodup_iff]
  refine nodup_map_congr fun p hp q hq => id_eq_iff hsha ?_ ?_ (hpairs p hp) (hpairs q hq)
  · exact hperm.mem_iff.mp (List.mem_map_of_mem hp)
  · exact hperm.mem_iff.mp (List.mem_map_of_mem hq)

theorem perm_reportOrder (representatives : List Nat) (analyses : List CapturedDatagramFlowAnalysis) :
    (reportOrder representatives analyses).Perm analyses := by
  have h := List.filter_append_perm (fun analysis : CapturedDatagramFlowAnalysis =>
    decide (analysis.id ∈ representatives)) analyses
  simpa [reportOrder] using h

/-- Of flows with distinct ids no more are representatives than there are ids of those. -/
theorem length_representatives {representatives : List Nat}
    {analyses : List CapturedDatagramFlowAnalysis} (h : (analyses.map fun flow => flow.id).Nodup) :
    (analyses.filter fun flow => flow.id ∈ representatives).length ≤ representatives.length := by
  have hnodup : ((analyses.filter fun flow => flow.id ∈ representatives).map
      fun flow => flow.id).Nodup := h.sublist (List.filter_sublist.map _)
  have hsubset : (analyses.filter fun flow => flow.id ∈ representatives).map (fun flow => flow.id) ⊆
      representatives := by
    intro id hid
    obtain ⟨flow, hflow, rfl⟩ := List.mem_map.mp hid
    exact of_decide_eq_true (List.mem_filter.mp hflow).2
  simpa using (List.subperm_of_subset hnodup hsubset).length_le

/-- The representative of a template is one of the flows. -/
theorem exists_representative (h : a.finish sha256 s = .ok (some analysis)) :
    ∃ analyzed, a.analyzed sha256 = .ok analyzed ∧
      analysis.flows = (reportOrder (analysis.workloadTemplates.map fun item => item.representativeFlowId)
        (analyzed.map fun item => item.2)).take s.maximumReportedFlows ∧
      analysis.workloadTemplates.length ≤ s.maximumWorkloadTemplates ∧
      ∀ template ∈ analysis.workloadTemplates, ∃ p ∈ analyzed, p.2.id = template.representativeFlowId := by
  obtain ⟨analyzed, templates, unordered, hanalyzed, htally, hunordered, -, hpublished, hflows⟩ :=
    (finished_of_finish h).steps
  refine ⟨analyzed, hanalyzed, hflows, hpublished ▸ List.length_take_le _ _, fun template htemplate => ?_⟩
  rw [hpublished] at htemplate
  have hmem := (perm_sortById _ _).mem_iff.mp (List.mem_of_mem_take htemplate)
  obtain ⟨entry, hentry, hbuilt⟩ := exists_left_of_forall₂ hunordered hmem
  obtain ⟨-, rfl⟩ := validated_eq_ok.mp hbuilt
  have hentries := (tally_eq_ok (entries_nil sha256 analyzed) (fun _ hp => hp) htally).1
  exact ⟨(entry.flow, entry.analysis), hentries.mem entry hentry, rfl⟩

/-- Without a recurring exchange the reported ids are distinct, and when no flow is cut off the ids are
distinct only then. -/
theorem nodup_reported (hsha : IdCollisionFree sha256 a.flows)
    (h : a.finish sha256 s = .ok (some analysis)) :
    (NoRecurrence a.flows → (analysis.flows.map fun flow => flow.id).Nodup) ∧
      (a.flows.length ≤ s.maximumReportedFlows → (analysis.flows.map fun flow => flow.id).Nodup →
        NoRecurrence a.flows) := by
  obtain ⟨analyzed, hanalyzed, hflows, -, -⟩ := exists_representative h
  have hids := nodup_ids_iff hsha hanalyzed
  have horder := (perm_reportOrder (analysis.workloadTemplates.map fun item =>
    item.representativeFlowId) (analyzed.map fun item => item.2)).map fun flow => flow.id
  rw [List.map_map] at horder
  constructor
  · intro hrecurrence
    have hnodup := horder.nodup_iff.mpr (hids.mpr hrecurrence)
    rw [hflows, List.map_take]
    exact hnodup.sublist (List.take_sublist _ _)
  · intro hfew hnodup
    have hlength : (reportOrder (analysis.workloadTemplates.map fun item => item.representativeFlowId)
        (analyzed.map fun item => item.2)).length ≤ s.maximumReportedFlows := by
      rw [(perm_reportOrder _ _).length_eq, List.length_map, ← List.length_map (f := Prod.fst),
        (analyzed_eq_ok hanalyzed).1.length_eq]
      exact hfew
    rw [hflows, List.take_of_length_le hlength] at hnodup
    exact hids.mp (horder.nodup_iff.mp hnodup)

/-- Without a recurring exchange every representative is reported. -/
theorem representative_reported (hsha : IdCollisionFree sha256 a.flows)
    (hlimits : s.maximumWorkloadTemplates ≤ s.maximumReportedFlows)
    (h : a.finish sha256 s = .ok (some analysis)) (hrecurrence : NoRecurrence a.flows) :
    ∀ template ∈ analysis.workloadTemplates,
      ∃ flow ∈ analysis.flows, flow.id = template.representativeFlowId := by
  obtain ⟨analyzed, hanalyzed, hflows, hfew, hrepresented⟩ := exists_representative h
  have hids : ((analyzed.map fun item => item.2).map fun flow => flow.id).Nodup := by
    rw [List.map_map]
    exact (nodup_ids_iff hsha hanalyzed).mpr hrecurrence
  intro template htemplate
  obtain ⟨p, hp, hid⟩ := hrepresented template htemplate
  refine ⟨p.2, ?_, hid⟩
  have hfront : p.2 ∈ (analyzed.map fun item => item.2).filter fun flow =>
      flow.id ∈ analysis.workloadTemplates.map fun item => item.representativeFlowId := by
    refine List.mem_filter.mpr ⟨List.mem_map_of_mem hp, decide_eq_true ?_⟩
    exact hid ▸ List.mem_map_of_mem htemplate
  have hlength := @length_representatives (analysis.workloadTemplates.map fun item =>
    item.representativeFlowId) _ hids
  rw [List.length_map] at hlength
  rw [hflows, reportOrder, List.take_append]
  refine List.mem_append_left _ ?_
  rw [List.take_of_length_le (by omega)]
  exact hfront

end Report

end TrexCli.Capture
