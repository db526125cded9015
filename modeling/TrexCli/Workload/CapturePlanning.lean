import TrexCli.Workload.Allocation
import TrexCli.Workload.Planning

/-!
# Planning a capture workload

`plan_capture_workload` of `test_plan.py`, up to the file of the plan. The connections are allocated to
the ids of the templates; templates that shared an id would be counted once there and twice by the
document's class, which refuses them.
-/

namespace TrexCli

open Capture (CaptureAnalysis CaptureResourceDocument StatefulCaptureAnalysis WorkloadTemplateAnalysis)

/-- What is asked for; of the duration, what `_parse_duration` makes of it. A number of connections
below zero is refused as zero is. -/
structure CaptureWorkloadIntent where
  clientRole : String
  serverRole : String
  cps : ℚ
  maxActiveConnections : Nat
  duration : Option Nat
  clientIpv4Start : Option AddressText := none
  clientIpv4End : Option AddressText := none
  serverIpv4Start : Option AddressText := none
  serverIpv4End : Option AddressText := none
  clientPortStart : Int := 1024
  clientPortEnd : Int := 65535

/-- `StatefulReplayDocument` -/
structure StatefulReplayDocument where
  name : Text
  clientRole : String
  serverRole : String
  spec : StatefulReplaySpec
  short : name.length ≤ 128

/-- `StatefulReplayPlan` -/
structure StatefulReplayPlan where
  planId : Text
  capture : CaptureResourceDocument CaptureAnalysis
  path : LabPath
  document : StatefulReplayDocument

/-- The message of a document that its classes refuse is pydantic's. -/
def PlanningError.refusedDocument : PlanningError := .testPlan "validation error"

/-! ### Pools -/

/-- `int(ipaddress.IPv4Address(text))` -/
def ipv4Number (text : AddressText) : Except PlanningError Nat :=
  match text.parsed with
  | some ⟨.v4, value, _⟩ => .ok value
  | _ => .error .notAddress

/-- The checks of an address pool. -/
def checkPool (policy : SafetyPolicy) (label : String) (start stop : AddressText) :
    Except PlanningError (Nat × Nat) := do
  let first ← ipv4Number start
  let last ← ipv4Number stop
  planCheck (first ≤ last) (label ++ " IPv4 pool end precedes start")
  planCheck (last - first + 1 ≤ policy.maxAddressPoolSize)
    (label ++ " IPv4 pool exceeds maxAddressPoolSize")
  planCheck (ipv4RangeAllowed first last policy.allowedCidrs = true)
    (label ++ " IPv4 pool is outside allowedCidrs")
  pure (first, last)

/-- What `Ipv4Pool` makes of its fields. -/
def ipv4Pool (pool : Nat × Nat) : Option Ipv4Pool :=
  if h : pool.1 ≤ pool.2 ∧ pool.2 < 2 ^ 32 then some ⟨pool.1, pool.2, h.1, h.2⟩ else none

/-- What `TransportPortPool` makes of its fields. -/
def transportPortPool (first last : Int) : Option TransportPortPool :=
  if h : 1024 ≤ first ∧ first ≤ last ∧ last ≤ 65535 then
    some ⟨first.toNat, last.toNat, by omega⟩
  else none

/-- What `StatefulReplayRun` makes of its fields. -/
def statefulReplayRun (cps : ℚ) (maxActiveConnections duration : Nat) : Option StatefulReplayRun :=
  if h : 0 < cps ∧ 1 ≤ maxActiveConnections ∧ 0 < duration then
    some ⟨cps, maxActiveConnections, duration, h⟩
  else none

/-! ### Templates -/

/-- `template.id` -/
def templateId (template : WorkloadTemplateAnalysis) : String := idText "template_" template.id

/-- `counts[id] = count` -/
def setCount (counts : List (String × Nat)) (id : String) (count : Nat) : List (String × Nat) :=
  if id ∈ counts.map Prod.fst then counts.map fun p => if p.1 = id then (id, count) else p
  else counts ++ [(id, count)]

/-- `occurrence_counts` -/
def occurrenceCounts (templates : List WorkloadTemplateAnalysis) : List (String × Nat) :=
  templates.foldl (fun counts template =>
    setCount counts (templateId template) template.occurrenceCount) []

/-- What a class makes of an element of `workload_templates`. -/
def sessionTemplateBinding (cps : ℚ) (sourceSessionCount : Nat) (allocations : List (String × Nat))
    (template : WorkloadTemplateAnalysis) : Option SessionTemplateBinding := do
  let maxActiveConnections ← allocations.lookup (templateId template)
  let weight : ℚ := template.occurrenceCount / sourceSessionCount
  let rate : ℚ := cps * template.occurrenceCount / sourceSessionCount
  if h : 1 ≤ template.occurrenceCount ∧ 0 < weight ∧ weight ≤ 1 ∧ 0 < rate ∧
      1 ≤ maxActiveConnections then
    some
      { id := templateId template
        digest := digestText template.digest
        representativeSession :=
          { id := idText "session_" template.representativeSessionId
            digest := digestText template.representativeSessionDigest
            serverPort := template.serverPort
            clientPayloadBytes := template.clientPayloadBytes
            serverPayloadBytes := template.serverPayloadBytes
            exchangeCount := template.exchangeCount }
        occurrenceCount := template.occurrenceCount
        weight
        cps := rate
        maxActiveConnections
        valid := h }
  else none

/-- What `CaptureWorkloadBinding` makes of its fields. -/
def captureWorkload (sourceSessionCount templateCount : Nat)
    (templates : List SessionTemplateBinding) : Option CaptureWorkload :=
  if h : (1 ≤ templates.length ∧ templates.length ≤ 256) ∧ templateCount = templates.length ∧
      sourceSessionCount = (templates.map fun item => item.occurrenceCount).sum ∧
      |(templates.map fun item => item.weight).sum - 1| ≤ 1 / 10 ^ 9 then
    some ⟨sourceSessionCount, templateCount, templates, h.1, h.2.1, h.2.2.1, h.2.2.2⟩
  else none

/-! ### The plan -/

/-- `f"{Path(capture.name).name}-workload"` -/
def captureWorkloadName (capture : CaptureResourceDocument CaptureAnalysis) : Text :=
  (PurePath.ofText capture.name).name ++ "-workload".toList

section Plan

variable (stateful : StatefulCaptureAnalysis)

/-- `source_session_count` -/
def sourceSessionCount : Nat := ((occurrenceCounts stateful.workloadTemplates).map Prod.snd).sum

/-- `StatefulReplayDocument.model_validate` -/
def statefulReplayDocument (capture : CaptureResourceDocument CaptureAnalysis) (path : LabPath)
    (intent : CaptureWorkloadIntent) (clientPort serverPort : PortId)
    (clientPool serverPool : Nat × Nat) (allocations : List (String × Nat)) :
    Option StatefulReplayDocument := do
  let portWaitTimeout ← path.portWaitTimeout
  let jobTimeout ← path.trafficJobTimeout
  let limits ← workloadLimits portWaitTimeout jobTimeout
  let templates ← stateful.workloadTemplates.mapM
    (sessionTemplateBinding intent.cps (sourceSessionCount stateful) allocations)
  let workload ← captureWorkload (sourceSessionCount stateful) templates.length templates
  let clientIpv4Pool ← ipv4Pool clientPool
  let clientTransportPool ← transportPortPool intent.clientPortStart intent.clientPortEnd
  let serverIpv4Pool ← ipv4Pool serverPool
  let duration ← intent.duration
  let run ← statefulReplayRun intent.cps intent.maxActiveConnections duration
  if short : (captureWorkloadName capture).length ≤ 128 then
    some
      { name := captureWorkloadName capture
        clientRole := intent.clientRole
        serverRole := intent.serverRole
        spec :=
          { limits
            capture := captureBinding capture
            shape := .workload workload
            client := ⟨clientPort, clientIpv4Pool, clientTransportPool⟩
            server := ⟨serverPort, serverIpv4Pool⟩
            run }
        short }
  else none

/-- The roles of a capture workload: their ports and addresses. -/
def captureRoles (path : LabPath) (intent : CaptureWorkloadIntent) :
    Except PlanningError ((PortId × AddressText) × (PortId × AddressText)) :=
  match path.roles.lookup intent.clientRole, path.roles.lookup intent.serverRole with
  | some client, some server => do
    planCheck (client.port ≠ server.port) "client and server roles must use different ports"
    match client.ipv4, server.ipv4 with
    | some clientIpv4, some serverIpv4 => .ok ((client.port, clientIpv4), (server.port, serverIpv4))
    | _, _ => .error (.testPlan "capture workload roles require IPv4 addresses")
  | _, _ => .error (.testPlan "LabPath does not define both capture workload roles")

/-- `plan_capture_workload` from the allocation on. -/
def planAllocated (identity : StatefulReplayDocument → Text) (policy : SafetyPolicy)
    (capture : CaptureResourceDocument CaptureAnalysis) (path : LabPath)
    (intent : CaptureWorkloadIntent) (clientPort serverPort : PortId)
    (clientPool serverPool : Nat × Nat) : Except PlanningError StatefulReplayPlan := do
  -- the number of connections has been compared with the number of templates before
  let allocations ← (weightedIntegerAllocation intent.maxActiveConnections
    (occurrenceCounts stateful.workloadTemplates)).mapError .testPlan
  match statefulReplayDocument stateful capture path intent clientPort serverPort clientPool serverPool
    allocations with
  | none => .error .refusedDocument
  | some document => do
    planCheck (document.spec.run.duration ≤ policy.maxRunDuration)
      "duration exceeds the configured SafetyPolicy maximum"
    pure ⟨"plan_".toList ++ identity document, capture, path, document⟩

/-- `plan_capture_workload` from the checks of the policy on. -/
def planSessions (identity : StatefulReplayDocument → Text) (policy : SafetyPolicy)
    (capture : CaptureResourceDocument CaptureAnalysis) (path : LabPath)
    (intent : CaptureWorkloadIntent) (client server : PortId × AddressText) :
    Except PlanningError StatefulReplayPlan := do
  let clientStart := intent.clientIpv4Start.getD client.2
  let serverStart := intent.serverIpv4Start.getD server.2
  planCheck (intent.cps ≤ policy.maxCps) "cps exceeds the configured SafetyPolicy maximum"
  planCheck (intent.maxActiveConnections ≤ policy.maxActiveConnections)
    "maxActiveConnections exceeds the configured SafetyPolicy maximum"
  let clientPool ← checkPool policy "client" clientStart (intent.clientIpv4End.getD clientStart)
  let serverPool ← checkPool policy "server" serverStart (intent.serverIpv4End.getD serverStart)
  planCheck (intent.clientPortStart ≤ intent.clientPortEnd)
    "client transport port pool end precedes start"
  planCheck ((intent.maxActiveConnections : Int) ≤ (clientPool.2 - clientPool.1 + 1 : Int) *
      (intent.clientPortEnd - intent.clientPortStart + 1))
    "PORT_POOL_EXHAUSTED: maxActiveConnections exceeds client address/port capacity"
  planAllocated stateful identity policy capture path intent client.1 server.1 clientPool serverPool

end Plan

/-- `plan_capture_workload`, up to `_persist`. `identity` are the digits of the hash of the canonical
document; `capture` and `path` are what `describe` and `_load_path` return. -/
def planCaptureWorkload (identity : StatefulReplayDocument → Text) (policy : Option SafetyPolicy)
    (capture : Except String (CaptureResourceDocument CaptureAnalysis))
    (path : Except PlanningError LabPath) (intent : CaptureWorkloadIntent) :
    Except PlanningError StatefulReplayPlan :=
  match policy with
  | none => .error (.testPlan "capture workload requires a configured SafetyPolicy")
  | some policy => do
    let capture ← capture.mapError .testPlan
    match capture.analysis.stateful with
    | none => .error (.testPlan "capture contains no reconstructible TCP sessions")
    | some stateful => do
      planCheck (stateful.workloadTemplates ≠ []) "capture contains no reconstructible TCP sessions"
      planCheck (stateful.workloadComplete = true)
        "WORKLOAD_TRUNCATED: all-reconstructible requires complete session analysis"
      planCheck (stateful.workloadTemplates.length ≤ intent.maxActiveConnections)
        "WORKLOAD_CAPACITY_EXHAUSTED: maxActiveConnections is smaller than templateCount"
      let path ← path
      let (client, server) ← captureRoles path intent
      planSessions stateful identity policy capture path intent client server

theorem planCheck_eq_ok {p : Prop} [Decidable p] {message : String} :
    planCheck p message = .ok () ↔ p := by
  unfold planCheck
  split <;> simp [*]

/-! ### Ids that are shared -/

section Counts

variable {counts : List (String × Nat)} {id : String} {count : Nat}

theorem keys_setCount : (setCount counts id count).map Prod.fst =
    if id ∈ counts.map Prod.fst then counts.map Prod.fst else counts.map Prod.fst ++ [id] := by
  unfold setCount
  split
  · rw [List.map_map]
    apply List.map_congr_left
    intro p _
    by_cases hp : p.1 = id
    · simp [hp]
    · simp [hp]
  · simp

/-- A count that replaces another adds less than itself. -/
theorem sum_setCount_lt (hnodup : (counts.map Prod.fst).Nodup) (hpos : ∀ p ∈ counts, 1 ≤ p.2)
    (hid : id ∈ counts.map Prod.fst) :
    ((counts.map fun p => if p.1 = id then (id, count) else p).map Prod.snd).sum <
      (counts.map Prod.snd).sum + count := by
  induction counts with
  | nil => cases hid
  | cons p rest ih =>
    rw [List.map_cons] at hnodup hid
    obtain ⟨hp, hrest⟩ := List.nodup_cons.mp hnodup
    have hone := hpos p List.mem_cons_self
    simp only [List.map_cons, List.sum_cons]
    by_cases hhead : p.1 = id
    · have hsame : (rest.map fun p => if p.1 = id then (id, count) else p) = rest := by
        refine (List.map_congr_left fun q hq => if_neg ?_).trans (List.map_id rest)
        rintro rfl
        exact hp (hhead ▸ List.mem_map_of_mem hq)
      rw [if_pos hhead, hsame]
      dsimp only
      omega
    · have hmem : id ∈ rest.map Prod.fst :=
        (List.mem_cons.mp hid).resolve_left (Ne.symm hhead)
      have hlt := ih hrest (fun q hq => hpos q (List.mem_cons_of_mem _ hq)) hmem
      rw [if_neg hhead]
      omega

/-- What the dictionary of the counts is: all of them when no id is shared, and less in sum else. -/
structure Counted (templates : List WorkloadTemplateAnalysis) (counts : List (String × Nat)) : Prop where
  nodup : (counts.map Prod.fst).Nodup
  keys : ∀ id, id ∈ counts.map Prod.fst ↔ id ∈ templates.map templateId
  positive : ∀ p ∈ counts, 1 ≤ p.2
  sum_le : (counts.map Prod.snd).sum ≤ (templates.map fun t => t.occurrenceCount).sum
  all : (counts.map Prod.snd).sum = (templates.map fun t => t.occurrenceCount).sum →
    counts = templates.map fun t => (templateId t, t.occurrenceCount)

theorem occurrenceCounts_concat (templates : List WorkloadTemplateAnalysis)
    (template : WorkloadTemplateAnalysis) :
    occurrenceCounts (templates ++ [template]) =
      setCount (occurrenceCounts templates) (templateId template) template.occurrenceCount := by
  rw [occurrenceCounts, List.foldl_append]
  rfl

theorem counted_occurrenceCounts (templates : List WorkloadTemplateAnalysis) :
    Counted templates (occurrenceCounts templates) := by
  induction templates using List.reverseRecOn with
  | nil => exact ⟨List.nodup_nil, by simp [occurrenceCounts], by simp [occurrenceCounts],
      le_rfl, fun _ => rfl⟩
  | append_singleton templates template ih =>
    rw [occurrenceCounts_concat]
    generalize occurrenceCounts templates = counts at ih
    have hone := template.valid.2.2.2
    by_cases hid : templateId template ∈ counts.map Prod.fst
    · have hkeys := @keys_setCount counts (templateId template) template.occurrenceCount
      rw [if_pos hid] at hkeys
      have hlt := @sum_setCount_lt _ _ template.occurrenceCount ih.nodup ih.positive hid
      have hle := ih.sum_le
      have hset : setCount counts (templateId template) template.occurrenceCount =
          counts.map fun p => if p.1 = templateId template then
            (templateId template, template.occurrenceCount) else p := if_pos hid
      refine ⟨by rw [hkeys]; exact ih.nodup, fun id => ?_, fun p hp => ?_, ?_, fun hsum => ?_⟩
      · rw [hkeys, ih.keys, List.map_append, List.mem_append]
        refine ⟨Or.inl, fun h => h.elim (fun h => h) fun h => ?_⟩
        obtain rfl := List.mem_singleton.mp h
        exact (ih.keys _).mp hid
      · rw [hset] at hp
        obtain ⟨q, hq, rfl⟩ := List.mem_map.mp hp
        split
        · exact hone
        · exact ih.positive q hq
      · rw [hset, List.map_append, List.sum_append]
        simp only [List.map_cons, List.map_nil, List.sum_singleton]
        omega
      · rw [hset, List.map_append, List.sum_append] at hsum
        simp only [List.map_cons, List.map_nil, List.sum_singleton] at hsum
        omega
    · have hset : setCount counts (templateId template) template.occurrenceCount =
          counts ++ [(templateId template, template.occurrenceCount)] := if_neg hid
      rw [hset]
      refine ⟨?_, fun id => ?_, fun p hp => ?_, ?_, fun hsum => ?_⟩
      · rw [List.map_append]
        refine List.nodup_append.mpr ⟨ih.nodup, List.nodup_singleton _, ?_⟩
        intro id hmem other hother heq
        rw [List.map_singleton, List.mem_singleton] at hother
        subst heq hother
        exact hid hmem
      · rw [List.map_append, List.map_append, List.mem_append, List.mem_append, ih.keys]
        rfl
      · rcases List.mem_append.mp hp with hp | hp
        · exact ih.positive p hp
        · rw [List.mem_singleton.mp hp]
          exact hone
      · rw [List.map_append, List.map_append, List.sum_append, List.sum_append]
        exact Nat.add_le_add_right ih.sum_le _
      · rw [List.map_append, List.map_append, List.sum_append, List.sum_append] at hsum
        rw [ih.all (Nat.add_right_cancel hsum), List.map_append]
        rfl

end Counts

/-! ### The connections of a plan -/

section Bindings

variable {cps : ℚ} {source : Nat} {allocations : List (String × Nat)}
  {template : WorkloadTemplateAnalysis} {binding : SessionTemplateBinding}

theorem sessionTemplateBinding_eq_some
    (h : sessionTemplateBinding cps source allocations template = some binding) :
    binding.id = templateId template ∧ binding.occurrenceCount = template.occurrenceCount ∧
      (binding.id, binding.maxActiveConnections) ∈ allocations := by
  unfold sessionTemplateBinding at h
  obtain ⟨connections, hlookup, h⟩ := Option.bind_eq_some_iff.mp h
  dsimp only at h
  split at h
  · cases h
    obtain ⟨before, after, rfl, -⟩ := List.lookup_eq_some_iff.mp hlookup
    exact ⟨rfl, rfl, List.mem_append_right _ List.mem_cons_self⟩
  · cases h

end Bindings

/-- Items with the keys of a dictionary that are in it are the dictionary. -/
theorem eq_of_keys {items allocations : List (String × Nat)}
    (hkeys : items.map Prod.fst = allocations.map Prod.fst)
    (hnodup : (allocations.map Prod.fst).Nodup) (hmem : ∀ p ∈ items, p ∈ allocations) :
    items = allocations := by
  have hlength : items.length = allocations.length := by
    simpa using congrArg List.length hkeys
  refine List.ext_getElem hlength fun i hi hi' => ?_
  have hkey : (items[i]).1 = (allocations[i]).1 := by
    have hget := List.getElem_of_eq hkeys (by simpa using hi)
    simpa using hget
  exact List.inj_on_of_nodup_map hnodup (hmem _ (List.getElem_mem hi)) (List.getElem_mem hi') hkey

/-- The connections of the templates are what the allocation has. -/
theorem connections_of_bindings {cps : ℚ} {source : Nat} {allocations : List (String × Nat)}
    {templates : List WorkloadTemplateAnalysis} {bindings : List SessionTemplateBinding}
    (hbindings : List.Forall₂
      (fun template binding => sessionTemplateBinding cps source allocations template = some binding)
      templates bindings)
    (hnodup : (allocations.map Prod.fst).Nodup)
    (hnames : allocations.map Prod.fst = templates.map templateId) :
    bindings.map (fun b => (b.id, b.maxActiveConnections)) = allocations := by
  have hids : bindings.map (fun b => b.id) = templates.map templateId := by
    clear hnames
    induction hbindings with
    | nil => rfl
    | cons hhead _ ih => rw [List.map_cons, List.map_cons, ih, (sessionTemplateBinding_eq_some hhead).1]
  have hmem : ∀ b ∈ bindings, (b.id, b.maxActiveConnections) ∈ allocations := by
    clear hnames hids
    induction hbindings with
    | nil => exact fun b hb => nomatch hb
    | cons hhead _ ih =>
      intro b hb
      rcases List.mem_cons.mp hb with rfl | hb
      · exact (sessionTemplateBinding_eq_some hhead).2.2
      · exact ih b hb
  apply eq_of_keys _ hnodup
  · intro p hp
    obtain ⟨b, hb, rfl⟩ := List.mem_map.mp hp
    exact hmem b hb
  · rw [List.map_map, hnames, ← hids]
    rfl

theorem occurrences_of_bindings {cps : ℚ} {source : Nat} {allocations : List (String × Nat)}
    {templates : List WorkloadTemplateAnalysis} {bindings : List SessionTemplateBinding}
    (hbindings : List.Forall₂
      (fun template binding => sessionTemplateBinding cps source allocations template = some binding)
      templates bindings) :
    bindings.map (fun b => b.occurrenceCount) = templates.map fun t => t.occurrenceCount := by
  induction hbindings with
  | nil => rfl
  | cons hhead _ ih => rw [List.map_cons, List.map_cons, ih, (sessionTemplateBinding_eq_some hhead).2.1]

/-- The weights of templates that share no id. -/
def templateWeights (templates : List WorkloadTemplateAnalysis) (hne : templates ≠ [])
    (hnodup : (templates.map templateId).Nodup) : Weights where
  items := templates.map fun t => (templateId t, t.occurrenceCount)
  nodup := by rwa [List.map_map]
  nonempty := by simpa using hne
  positive := by
    intro p hp
    obtain ⟨t, -, rfl⟩ := List.mem_map.mp hp
    exact t.valid.2.2.2

/-- What the document of a plan distributes. -/
theorem connections_of_document {stateful : StatefulCaptureAnalysis}
    {capture : CaptureResourceDocument CaptureAnalysis} {path : LabPath}
    {intent : CaptureWorkloadIntent} {clientPort serverPort : PortId} {clientPool serverPool : Nat × Nat}
    {allocations : List (String × Nat)} {document : StatefulReplayDocument}
    (hne : stateful.workloadTemplates ≠ [])
    (hcount : stateful.workloadTemplates.length ≤ intent.maxActiveConnections)
    (hallocations : weightedIntegerAllocation intent.maxActiveConnections
      (occurrenceCounts stateful.workloadTemplates) = .ok allocations)
    (h : statefulReplayDocument stateful capture path intent clientPort serverPort clientPool
      serverPool allocations = some document) :
    ∃ workload, document.spec.shape = .workload workload ∧
      ∃ hnodup, (templateWeights stateful.workloadTemplates hne hnodup).Apportions
        intent.maxActiveConnections
        (workload.templates.map fun b => (b.id, b.maxActiveConnections)) := by
  simp only [statefulReplayDocument, Option.bind_eq_bind, Option.bind_eq_some_iff, mapM_eq_some] at h
  obtain ⟨_, -, _, -, limits, -, templates, hbindings, workload, hworkload, _, -, _, -, _, -, _, -, _,
    -, h⟩ := h
  unfold captureWorkload at hworkload
  split at hworkload
  · next hvalid =>
    cases hworkload
    split at h
    · cases h
      -- the class compares the two counts of the sessions
      have hsessions := hvalid.2.2.1
      rw [occurrences_of_bindings hbindings] at hsessions
      have hcounted := counted_occurrenceCounts stateful.workloadTemplates
      have hall := hcounted.all hsessions
      have hnodup : (stateful.workloadTemplates.map templateId).Nodup := by
        have hkeys := hcounted.nodup
        rwa [hall, List.map_map] at hkeys
      refine ⟨_, rfl, hnodup, ?_⟩
      have hlength : (templateWeights stateful.workloadTemplates hne hnodup).count ≤
          intent.maxActiveConnections := by
        rw [Weights.count, templateWeights, List.length_map]
        exact hcount
      obtain ⟨allocation, hallocation, happortions⟩ := Weights.exists_allocation hlength
      rw [hall] at hallocations
      obtain rfl := Except.ok.inj (hallocations.symm.trans hallocation)
      have hnames := happortions.names
      rw [connections_of_bindings hbindings (by rw [hnames]; exact Weights.nodup _)
        (by rw [hnames, templateWeights, List.map_map]; rfl)]
      exact happortions
    · cases h
  · cases hworkload

theorem connections_of_planSessions {stateful : StatefulCaptureAnalysis}
    {identity : StatefulReplayDocument → Text} {policy : SafetyPolicy}
    {capture : CaptureResourceDocument CaptureAnalysis} {path : LabPath}
    {intent : CaptureWorkloadIntent} {client server : PortId × AddressText} {plan : StatefulReplayPlan}
    (hne : stateful.workloadTemplates ≠ [])
    (hcount : stateful.workloadTemplates.length ≤ intent.maxActiveConnections)
    (h : planSessions stateful identity policy capture path intent client server = .ok plan) :
    ∃ workload, plan.document.spec.shape = .workload workload ∧
      ∃ hnodup, (templateWeights stateful.workloadTemplates hne hnodup).Apportions
        intent.maxActiveConnections
        (workload.templates.map fun b => (b.id, b.maxActiveConnections)) := by
  simp only [planSessions, check_bind_eq_ok] at h
  obtain ⟨-, -, h⟩ := h
  obtain ⟨clientPool, -, h⟩ := bind_eq_ok.mp h
  obtain ⟨serverPool, -, h⟩ := bind_eq_ok.mp h
  simp only [check_bind_eq_ok] at h
  obtain ⟨-, -, h⟩ := h
  obtain ⟨allocations, hallocations, h⟩ := bind_eq_ok.mp h
  have hallocations := mapError_eq_ok.mp hallocations
  split at h
  · cases h
  · next document hdocument =>
    rw [check_bind_eq_ok] at h
    cases h.2
    exact connections_of_document hne hcount hallocations hdocument

/-- A plan gives its connections to the templates in proportion to their sessions. -/
theorem connections_of_plan {identity : StatefulReplayDocument → Text} {policy : Option SafetyPolicy}
    {capture : Except String (CaptureResourceDocument CaptureAnalysis)}
    {path : Except PlanningError LabPath} {intent : CaptureWorkloadIntent} {plan : StatefulReplayPlan}
    (h : planCaptureWorkload identity policy capture path intent = .ok plan) :
    ∃ (stateful : StatefulCaptureAnalysis) (workload : CaptureWorkload),
      plan.document.spec.shape = .workload workload ∧
        ∃ hne hnodup, (templateWeights stateful.workloadTemplates hne hnodup).Apportions
          intent.maxActiveConnections
          (workload.templates.map fun b => (b.id, b.maxActiveConnections)) := by
  unfold planCaptureWorkload at h
  split at h
  · cases h
  · obtain ⟨capture, -, h⟩ := bind_eq_ok.mp h
    split at h
    · cases h
    · next stateful _ =>
      simp only [check_bind_eq_ok] at h
      obtain ⟨hne, -, hcount, h⟩ := h
      obtain ⟨path, -, h⟩ := bind_eq_ok.mp h
      obtain ⟨⟨client, server⟩, -, h⟩ := bind_eq_ok.mp h
      have hne := planCheck_eq_ok.mp hne
      obtain ⟨workload, hshape, happortions⟩ :=
        connections_of_planSessions hne (planCheck_eq_ok.mp hcount) h
      exact ⟨stateful, workload, hshape, hne, happortions⟩

/-- The allocation of every total that is large enough is the whole of it, by largest remainders, and a
capture workload distributes exactly the connections that are asked for. -/
theorem connections_distributed :
    (∀ (w : Weights) (total : Nat), w.count ≤ total → ∃ allocation,
      weightedIntegerAllocation total w.items = .ok allocation ∧ w.Apportions total allocation) ∧
    ∀ identity policy capture path intent plan,
      planCaptureWorkload identity policy capture path intent = .ok plan →
        ∃ workload, plan.document.spec.shape = .workload workload ∧
          (workload.templates.map fun b => b.maxActiveConnections).sum =
            intent.maxActiveConnections := by
  refine ⟨fun w total h => Weights.exists_allocation h, ?_⟩
  intro identity policy capture path intent plan h
  obtain ⟨stateful, workload, hshape, hne, hnodup, happortions⟩ := connections_of_plan h
  refine ⟨workload, hshape, ?_⟩
  have hwhole := happortions.whole
  rwa [List.map_map] at hwhole

end TrexCli
