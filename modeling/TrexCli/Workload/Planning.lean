import Mathlib.Algebra.Order.BigOperators.Group.List
import TrexCli.Capture.Analysis
import TrexCli.Capture.Catalog
import TrexCli.Capture.Reporting
import TrexCli.Lib.Lexicographic
import TrexCli.Workload.Documents

/-!
# Planning a UDP workload

`plan_udp_workload` of `test_plan.py`, up to the file of the plan. The plan looks up the representative
flow of each template among the reported flows, and whatever a document's classes refuse afterwards is
reported as an inconsistent analysis too: a rate or a duration that is not positive, a timeout of the
path, a name that is too long.
-/

namespace TrexCli

open Capture (DatagramCaptureAnalysis DatagramWorkloadTemplateAnalysis CapturedDatagramFlowAnalysis
  CaptureAnalysis CaptureResourceDocument)

/-- `TestPlanError`, and the `ValueError` of a text that is no address. -/
inductive PlanningError where
  | testPlan (message : String)
  | notAddress
  deriving DecidableEq

def PlanningError.inconsistent : PlanningError :=
  .testPlan "capture datagram workload analysis is inconsistent"

/-- `if not …: raise TestPlanError(…)` -/
def planCheck (p : Prop) [Decidable p] (message : String) : Except PlanningError Unit :=
  if p then .ok () else .error (.testPlan message)

/-- `LabRole` -/
structure LabRole where
  port : PortId
  mac : Option String
  ipv4 : Option AddressText

/-- `LabPathResource`; of a timeout it has what `_parse_duration` makes of the text. -/
structure LabPath where
  name : String
  revision : Nat
  digest : String
  roles : List (String × LabRole)
  portWaitTimeout : Option Nat
  trafficJobTimeout : Option Nat

/-- What is asked for; of the duration, what `_parse_duration` makes of it. -/
structure UdpWorkloadIntent where
  initiatorRole : String
  responderRole : String
  fps : ℚ
  duration : Option Nat

/-- `UdpWorkloadDocument` -/
structure UdpWorkloadDocument where
  name : Text
  initiatorRole : String
  responderRole : String
  spec : UdpWorkloadSpec
  short : name.length ≤ 128

/-- `UdpWorkloadPlan` -/
structure UdpWorkloadPlan where
  planId : Text
  capture : CaptureResourceDocument CaptureAnalysis
  path : LabPath
  document : UdpWorkloadDocument

/-! ### The document -/

/-- `sha256:` and the digits of a hash. -/
def digestText (digest : Capture.Digest) : String :=
  "sha256:" ++ String.ofList (Lexicographic.fixedDigits 16 64 digest.val)

/-- An id: a word, and the first digits of a hash. -/
def idText (word : String) (id : Nat) : String := word ++ String.ofList (Lexicographic.fixedDigits 16 24 id)

/-- The text of a hardware address. -/
def hardwareText (h : HardwareAddress) : String := String.ofList (octetsText (h.toList.map UInt8.toNat))

/-- `capture_binding` -/
def captureBinding (capture : CaptureResourceDocument CaptureAnalysis) : CaptureBinding where
  name := String.ofList capture.name
  revision := capture.revision
  digest := digestText capture.digest
  size := capture.size
  packetCount := capture.analysis.packetCount
  durationSeconds := capture.analysis.durationSeconds
  normalizedDurationSeconds := capture.analysis.normalizedDurationSeconds
  nonMonotonicTimestampCount := capture.analysis.nonMonotonicTimestampCount
  maximumBackwardJumpSeconds := capture.analysis.maximumBackwardJumpSeconds
  macEndpoints := capture.analysis.macEndpoints.map hardwareText
  ipv4Endpoints := capture.analysis.ipv4Endpoints.map fun a => ⟨some a, true⟩
  hasBroadcast := capture.analysis.safety.hasBroadcast
  hasMulticast := capture.analysis.safety.hasMulticast
  valid := ⟨capture.metadata.revision_pos, capture.analysis.valid⟩

/-- `f"{Path(capture.name).name}-udp-workload"` -/
def workloadName (capture : CaptureResourceDocument CaptureAnalysis) : Text :=
  (PurePath.ofText capture.name).name ++ "-udp-workload".toList

section Templates

variable (fps : ℚ) (sourceFlowCount : Nat) (template : DatagramWorkloadTemplateAnalysis)

/-- `template_fps` -/
def templateFps : ℚ := fps * template.occurrenceCount / sourceFlowCount

/-- What a class makes of an element of `workload_templates`. -/
def templateBinding (flow : CapturedDatagramFlowAnalysis) : Option DatagramTemplateBinding :=
  let weight : ℚ := template.occurrenceCount / sourceFlowCount
  if h : 1 ≤ template.occurrenceCount ∧ 0 < weight ∧ weight ≤ 1 ∧
      0 < templateFps fps sourceFlowCount template then
    some
      { id := idText "udptemplate_" template.id
        digest := digestText template.digest
        representativeFlow :=
          { id := idText "udpflow_" template.representativeFlowId
            digest := digestText template.representativeFlowDigest
            initiatorPort := flow.initiator.port
            responderPort := flow.responder.port
            datagramCount := template.datagramCount
            initiatorDatagramCount := template.initiatorDatagramCount
            responderDatagramCount := template.responderDatagramCount
            initiatorPayloadBytes := template.initiatorPayloadBytes
            responderPayloadBytes := template.responderPayloadBytes
            durationMicroseconds := template.durationMicroseconds
            l1BytesPerFlow := template.l1BytesPerFlow }
        occurrenceCount := template.occurrenceCount
        weight
        fps := templateFps fps sourceFlowCount template
        valid := h }
  else none

end Templates

/-- What `DatagramWorkloadBinding` makes of its fields. -/
def datagramWorkload (sourceFlowCount templateCount : Nat) (templates : List DatagramTemplateBinding) :
    Option DatagramWorkload :=
  if h : (1 ≤ templates.length ∧ templates.length ≤ 256) ∧ templateCount = templates.length ∧
      sourceFlowCount = (templates.map fun item => item.occurrenceCount).sum ∧
      |(templates.map fun item => item.weight).sum - 1| ≤ 1 / 10 ^ 9 then
    some ⟨sourceFlowCount, templateCount, templates, h.1, h.2.1, h.2.2.1, h.2.2.2⟩
  else none

/-- What `Limits` makes of its fields. -/
def workloadLimits (portWaitTimeout jobTimeout : Nat) : Option Limits :=
  if h : 0 < portWaitTimeout ∧ 0 < jobTimeout then some ⟨portWaitTimeout, jobTimeout, h⟩ else none

/-- What `UdpWorkloadRun` makes of its fields. -/
def workloadRun (fps estimatedPps estimatedBpsL1 : ℚ) (duration : Nat) : Option UdpWorkloadRun :=
  if h : 0 < fps ∧ 0 < estimatedPps ∧ 0 < estimatedBpsL1 ∧ 0 < duration then
    some ⟨fps, estimatedPps, estimatedBpsL1, duration, h⟩
  else none

/-! ### The plan -/

section Plan

variable (datagram : DatagramCaptureAnalysis)

/-- `source_flow_count` -/
def sourceFlowCount : Nat := (datagram.workloadTemplates.map fun template => template.occurrenceCount).sum

/-- `estimated_pps` -/
def estimatedPps (fps : ℚ) : ℚ :=
  (datagram.workloadTemplates.map fun template =>
    templateFps fps (sourceFlowCount datagram) template * template.datagramCount).sum

/-- `estimated_bps_l1` -/
def estimatedBpsL1 (fps : ℚ) : ℚ :=
  (datagram.workloadTemplates.map fun template =>
    templateFps fps (sourceFlowCount datagram) template * template.l1BytesPerFlow * 8).sum

/-- `flows_by_id.get(…)`, of the last flow with an id. -/
def flowById (id : Nat) : Option CapturedDatagramFlowAnalysis :=
  datagram.flows.reverse.find? fun flow => flow.id = id

/-- The templates with their representatives. -/
def representatives :
    Except PlanningError (List (DatagramWorkloadTemplateAnalysis × CapturedDatagramFlowAnalysis)) :=
  datagram.workloadTemplates.mapM fun template =>
    match flowById datagram template.representativeFlowId with
    | some flow => .ok (template, flow)
    | none => .error .inconsistent

/-- `UdpWorkloadDocument.model_validate` -/
def udpWorkloadDocument (capture : CaptureResourceDocument CaptureAnalysis) (path : LabPath)
    (intent : UdpWorkloadIntent) (initiator responder : DatagramReplayRole)
    (templates : List (DatagramWorkloadTemplateAnalysis × CapturedDatagramFlowAnalysis)) :
    Option UdpWorkloadDocument := do
  let portWaitTimeout ← path.portWaitTimeout
  let jobTimeout ← path.trafficJobTimeout
  let limits ← workloadLimits portWaitTimeout jobTimeout
  let bindings ← templates.mapM fun item =>
    templateBinding intent.fps (sourceFlowCount datagram) item.1 item.2
  let workload ← datagramWorkload (sourceFlowCount datagram) templates.length bindings
  let duration ← intent.duration
  let run ← workloadRun intent.fps (estimatedPps datagram intent.fps)
    (estimatedBpsL1 datagram intent.fps) duration
  if short : (workloadName capture).length ≤ 128 then
    some
      { name := workloadName capture
        initiatorRole := intent.initiatorRole
        responderRole := intent.responderRole
        spec := { limits, capture := captureBinding capture, workload, initiator, responder, run }
        short }
  else none

/-- An address that is not in `allowedCidrs`; without networks it is not parsed. -/
def checkNetworks (policy : SafetyPolicy) (label : String) (address : AddressText) :
    Except PlanningError Unit :=
  let message := "UDP workload " ++ label ++ " IPv4 is outside allowedCidrs"
  if policy.allowedCidrs = [] then .error (.testPlan message)
  else
    match address.parsed with
    | some a => planCheck (policy.allowsAddress a = true) message
    | none => .error .notAddress

/-- The address and MAC checks of the roles. -/
def checkRoles (policy : SafetyPolicy) (initiator responder : DatagramReplayRole) :
    Except PlanningError Unit := do
  checkNetworks policy "initiator" initiator.ipv4
  checkNetworks policy "responder" responder.ipv4
  planCheck (policy.allowsMacText initiator.mac = true)
    "UDP workload initiator MAC is outside allowedMacPrefixes"
  planCheck (policy.allowsMacText responder.mac = true)
    "UDP workload responder MAC is outside allowedMacPrefixes"

/-- The roles of a workload, with their addresses. -/
def workloadRoles (path : LabPath) (intent : UdpWorkloadIntent) :
    Except PlanningError (DatagramReplayRole × DatagramReplayRole) :=
  match path.roles.lookup intent.initiatorRole, path.roles.lookup intent.responderRole with
  | some initiator, some responder => do
    planCheck (initiator.port ≠ responder.port) "UDP workload roles must use different ports"
    match initiator.mac, responder.mac, initiator.ipv4, responder.ipv4 with
    | some initiatorMac, some responderMac, some initiatorIpv4, some responderIpv4 =>
      .ok (⟨initiator.port, initiatorMac, initiatorIpv4⟩, ⟨responder.port, responderMac, responderIpv4⟩)
    | _, _, _, _ => .error (.testPlan "UDP workload roles require MAC and IPv4 addresses")
  | _, _ => .error (.testPlan "LabPath does not define both UDP workload roles")

/-- `plan_udp_workload` from the loop on, of a complete workload. -/
def planTemplates (identity : UdpWorkloadDocument → Text) (policy : SafetyPolicy)
    (capture : CaptureResourceDocument CaptureAnalysis) (path : LabPath) (intent : UdpWorkloadIntent)
    (initiator responder : DatagramReplayRole) : Except PlanningError UdpWorkloadPlan := do
  let templates ← representatives datagram
  planCheck (estimatedPps datagram intent.fps ≤ policy.maxPps)
    "UDP workload estimatedPps exceeds the SafetyPolicy maximum"
  planCheck (estimatedBpsL1 datagram intent.fps ≤ policy.maxBpsL1)
    "UDP workload estimatedBpsL1 exceeds the SafetyPolicy maximum"
  match udpWorkloadDocument datagram capture path intent initiator responder templates with
  | none => .error .inconsistent
  | some document => do
    planCheck (∀ template ∈ datagram.workloadTemplates,
        template.durationMicroseconds < document.spec.run.duration * 1000)
      "UDP workload duration must exceed the latest template datagram offset"
    planCheck (document.spec.run.duration ≤ policy.maxRunDuration)
      "duration exceeds the configured SafetyPolicy maximum"
    pure ⟨"plan_".toList ++ identity document, capture, path, document⟩

end Plan

/-- `plan_udp_workload`, up to `_persist`. `identity` are the digits of the hash of the canonical
document; `capture` and `path` are what `describe` and `_load_path` return. -/
def planUdpWorkload (identity : UdpWorkloadDocument → Text) (policy : Option SafetyPolicy)
    (capture : Except String (CaptureResourceDocument CaptureAnalysis))
    (path : Except PlanningError LabPath) (intent : UdpWorkloadIntent) :
    Except PlanningError UdpWorkloadPlan :=
  match policy with
  | none => .error (.testPlan "UDP workload requires a configured SafetyPolicy")
  | some policy => do
    let capture ← capture.mapError .testPlan
    match capture.analysis.datagram with
    | none => .error (.testPlan "capture contains no replayable UDP flows")
    | some datagram => do
      planCheck (datagram.workloadTemplates ≠ []) "capture contains no replayable UDP flows"
      planCheck (datagram.workloadComplete = true)
        "DATAGRAM_WORKLOAD_TRUNCATED: all-datagram-flows requires complete analysis"
      let path ← path
      let (initiator, responder) ← workloadRoles path intent
      checkRoles policy initiator responder
      planTemplates datagram identity policy capture path intent initiator responder

/-! ### Plans of consistent analyses -/

/-- Every representative is reported, and the ids of the reported flows are distinct. -/
structure Capture.DatagramCaptureAnalysis.Consistent (datagram : DatagramCaptureAnalysis) : Prop where
  representatives : ∀ template ∈ datagram.workloadTemplates,
    ∃ flow ∈ datagram.flows, flow.id = template.representativeFlowId
  distinct : (datagram.flows.map fun flow => flow.id).Nodup

/-- What the classes of a document ask of a request: a name that is not too long, timeouts of the path,
a rate and a duration that are positive. -/
structure UdpWorkloadIntent.Valid (intent : UdpWorkloadIntent)
    (capture : CaptureResourceDocument CaptureAnalysis) (path : LabPath) : Prop where
  name : (PurePath.ofText capture.name).name.length ≤ 115
  portWaitTimeout : ∃ n, path.portWaitTimeout = some n ∧ 0 < n
  jobTimeout : ∃ n, path.trafficJobTimeout = some n ∧ 0 < n
  fps : 0 < intent.fps
  duration : ∃ n, intent.duration = some n ∧ 0 < n

theorem bind_ne_error {ε α β : Type} {m : Except ε α} {f : α → Except ε β} {e : ε}
    (hm : m ≠ .error e) (hf : ∀ a, m = .ok a → f a ≠ .error e) : (m >>= f) ≠ .error e := by
  cases m with
  | error e' => exact fun h => hm (congrArg Except.error (Except.error.inj h))
  | ok a => exact hf a rfl

theorem planCheck_ne {p : Prop} [Decidable p] {message : String}
    (h : PlanningError.testPlan message ≠ .inconsistent) :
    planCheck p message ≠ .error .inconsistent := by
  unfold planCheck
  split
  · exact nofun
  · exact fun heq => h (Except.error.inj heq)

section Consistent

variable {datagram : DatagramCaptureAnalysis} {fps : ℚ}

/-- The reported representatives are found. -/
theorem exists_representatives (h : ∀ template ∈ datagram.workloadTemplates,
    ∃ flow ∈ datagram.flows, flow.id = template.representativeFlowId) :
    ∃ templates, representatives datagram = .ok templates ∧
      templates.map Prod.fst = datagram.workloadTemplates := by
  have hfound : ∀ template ∈ datagram.workloadTemplates, ∃ flow,
      flowById datagram template.representativeFlowId = some flow := by
    intro template htemplate
    obtain ⟨flow, hflow, hid⟩ := h template htemplate
    refine Option.isSome_iff_exists.mp (List.find?_isSome.mpr ⟨flow, List.mem_reverse.mpr hflow, ?_⟩)
    exact decide_eq_true hid
  unfold representatives
  clear h
  generalize datagram.workloadTemplates = templates at hfound ⊢
  induction templates with
  | nil => exact ⟨[], rfl, rfl⟩
  | cons template rest ih =>
    obtain ⟨flow, hflow⟩ := hfound template List.mem_cons_self
    obtain ⟨templates, htemplates, hmap⟩ := ih fun other hother => hfound other (.tail _ hother)
    refine ⟨(template, flow) :: templates, ?_, congrArg (template :: ·) hmap⟩
    rw [List.mapM_cons, hflow, htemplates]
    rfl

theorem sourceFlowCount_pos (h : datagram.workloadTemplates ≠ []) : 0 < sourceFlowCount datagram := by
  obtain ⟨template, rest, heq⟩ := List.exists_cons_of_ne_nil h
  have hcount := template.valid.2.2.2.2
  rw [sourceFlowCount, heq, List.map_cons, List.sum_cons]
  omega

theorem occurrenceCount_le {template : DatagramWorkloadTemplateAnalysis}
    (h : template ∈ datagram.workloadTemplates) :
    template.occurrenceCount ≤ sourceFlowCount datagram :=
  List.single_le_sum (fun _ _ => Nat.zero_le _) _ (List.mem_map_of_mem h)

theorem templateFps_pos (hfps : 0 < fps) {template : DatagramWorkloadTemplateAnalysis}
    (h : template ∈ datagram.workloadTemplates) :
    0 < templateFps fps (sourceFlowCount datagram) template := by
  have hcount := template.valid.2.2.2.2
  have hsource := sourceFlowCount_pos (List.ne_nil_of_mem h)
  have hcountPos : (0 : ℚ) < template.occurrenceCount := by exact_mod_cast hcount
  have hsourcePos : (0 : ℚ) < sourceFlowCount datagram := by exact_mod_cast hsource
  exact div_pos (mul_pos hfps hcountPos) hsourcePos

theorem templateBinding_isSome (hfps : 0 < fps) {template : DatagramWorkloadTemplateAnalysis}
    (h : template ∈ datagram.workloadTemplates) (flow : CapturedDatagramFlowAnalysis) :
    ∃ binding, templateBinding fps (sourceFlowCount datagram) template flow = some binding ∧
      binding.occurrenceCount = template.occurrenceCount ∧
      binding.weight = template.occurrenceCount / sourceFlowCount datagram := by
  have hcount := template.valid.2.2.2.2
  have hsource := sourceFlowCount_pos (List.ne_nil_of_mem h)
  have hcountPos : (0 : ℚ) < template.occurrenceCount := by exact_mod_cast hcount
  have hsourcePos : (0 : ℚ) < sourceFlowCount datagram := by exact_mod_cast hsource
  have hle : (template.occurrenceCount : ℚ) ≤ sourceFlowCount datagram := by
    exact_mod_cast occurrenceCount_le h
  have hvalid : 1 ≤ template.occurrenceCount ∧
      0 < (template.occurrenceCount : ℚ) / sourceFlowCount datagram ∧
      (template.occurrenceCount : ℚ) / sourceFlowCount datagram ≤ 1 ∧
      0 < templateFps fps (sourceFlowCount datagram) template :=
    ⟨hcount, div_pos hcountPos hsourcePos, (div_le_one hsourcePos).mpr hle, templateFps_pos hfps h⟩
  exact ⟨_, dif_pos hvalid, rfl, rfl⟩

/-- The weights of all templates are one. -/
theorem sum_weights (h : datagram.workloadTemplates ≠ []) :
    (datagram.workloadTemplates.map fun template =>
      (template.occurrenceCount : ℚ) / sourceFlowCount datagram).sum = 1 := by
  have hsource : (sourceFlowCount datagram : ℚ) ≠ 0 := by
    have hpos := sourceFlowCount_pos h
    exact_mod_cast hpos.ne'
  have hdiv : ∀ templates : List DatagramWorkloadTemplateAnalysis,
      (templates.map fun template => (template.occurrenceCount : ℚ) / sourceFlowCount datagram).sum =
        ((templates.map fun template => template.occurrenceCount).sum : ℕ) / sourceFlowCount datagram := by
    intro templates
    induction templates with
    | nil => simp
    | cons template rest ih =>
      rw [List.map_cons, List.sum_cons, List.map_cons, List.sum_cons, ih, Nat.cast_add, add_div]
  rw [hdiv]
  exact div_self hsource

/-- The workload of all templates is valid. -/
theorem exists_workload (hfps : 0 < fps) (hne : datagram.workloadTemplates ≠ [])
    (hbounded : datagram.workloadTemplates.length ≤ 256)
    {templates : List (DatagramWorkloadTemplateAnalysis × CapturedDatagramFlowAnalysis)}
    (htemplates : templates.map Prod.fst = datagram.workloadTemplates) :
    ∃ bindings workload, (templates.mapM fun item =>
        templateBinding fps (sourceFlowCount datagram) item.1 item.2) = some bindings ∧
      datagramWorkload (sourceFlowCount datagram) templates.length bindings = some workload := by
  have hbound : ∀ item ∈ templates, ∃ binding,
      templateBinding fps (sourceFlowCount datagram) item.1 item.2 = some binding ∧
        binding.occurrenceCount = item.1.occurrenceCount ∧
        binding.weight = item.1.occurrenceCount / sourceFlowCount datagram := fun item hitem =>
    templateBinding_isSome hfps (htemplates ▸ List.mem_map_of_mem hitem) item.2
  have hbindings : ∀ items : List (DatagramWorkloadTemplateAnalysis × CapturedDatagramFlowAnalysis),
      (∀ item ∈ items, item ∈ templates) → ∃ bindings, (items.mapM fun item =>
        templateBinding fps (sourceFlowCount datagram) item.1 item.2) = some bindings ∧
          bindings.map (fun item => item.occurrenceCount) = items.map (fun item => item.1.occurrenceCount) ∧
          bindings.map (fun item => item.weight) = items.map fun item =>
            (item.1.occurrenceCount : ℚ) / sourceFlowCount datagram := by
    intro items hitems
    induction items with
    | nil => exact ⟨[], rfl, rfl, rfl⟩
    | cons item items ih =>
      obtain ⟨binding, hbinding, hcount, hweight⟩ := hbound item (hitems item List.mem_cons_self)
      obtain ⟨bindings, hrest, hcounts, hweights⟩ := ih fun other hother => hitems other (.tail _ hother)
      refine ⟨binding :: bindings, ?_, ?_, ?_⟩
      · rw [List.mapM_cons, hbinding, hrest]
        rfl
      · rw [List.map_cons, List.map_cons, hcount, hcounts]
      · rw [List.map_cons, List.map_cons, hweight, hweights]
  obtain ⟨bindings, hmapM, hcounts, hweights⟩ := hbindings templates fun _ h => h
  have hlength : bindings.length = templates.length := by
    simpa using congrArg List.length hcounts
  have hall : templates.length = datagram.workloadTemplates.length := by
    rw [← htemplates, List.length_map]
  have hpos : 0 < datagram.workloadTemplates.length := List.length_pos_of_ne_nil hne
  have hsum : (bindings.map fun item => item.weight).sum = 1 := by
    rw [hweights, ← sum_weights hne, ← htemplates, List.map_map]
    rfl
  have hoccurrences : sourceFlowCount datagram =
      (bindings.map fun item => item.occurrenceCount).sum := by
    rw [hcounts, sourceFlowCount, ← htemplates, List.map_map]
    rfl
  have hvalid : (1 ≤ bindings.length ∧ bindings.length ≤ 256) ∧ templates.length = bindings.length ∧
      sourceFlowCount datagram = (bindings.map fun item => item.occurrenceCount).sum ∧
      |(bindings.map fun item => item.weight).sum - 1| ≤ 1 / 10 ^ 9 := by
    refine ⟨by omega, hlength.symm, hoccurrences, ?_⟩
    rw [hsum]
    norm_num
  exact ⟨bindings, _, hmapM, dif_pos hvalid⟩

theorem estimated_pos (hfps : 0 < fps) (hne : datagram.workloadTemplates ≠ []) :
    0 < estimatedPps datagram fps ∧ 0 < estimatedBpsL1 datagram fps := by
  have hnonempty : ∀ f : DatagramWorkloadTemplateAnalysis → ℚ,
      datagram.workloadTemplates.map f ≠ [] := fun f => by simpa using hne
  constructor
  · refine List.sum_pos _ (fun x hx => ?_) (hnonempty _)
    obtain ⟨template, htemplate, rfl⟩ := List.mem_map.mp hx
    have hcount : (0 : ℚ) < template.datagramCount := by exact_mod_cast template.valid.2.2.1
    exact mul_pos (templateFps_pos hfps htemplate) hcount
  · refine List.sum_pos _ (fun x hx => ?_) (hnonempty _)
    obtain ⟨template, htemplate, rfl⟩ := List.mem_map.mp hx
    have hbytes : (0 : ℚ) < template.l1BytesPerFlow := by exact_mod_cast template.valid.2.2.2.1
    exact mul_pos (mul_pos (templateFps_pos hfps htemplate) hbytes) (by norm_num)

/-- A valid request has a document. -/
theorem exists_document (hne : datagram.workloadTemplates ≠ [])
    (hbounded : datagram.workloadTemplates.length ≤ 256)
    {capture : CaptureResourceDocument CaptureAnalysis} {path : LabPath} {intent : UdpWorkloadIntent}
    (hvalid : intent.Valid capture path)
    {templates : List (DatagramWorkloadTemplateAnalysis × CapturedDatagramFlowAnalysis)}
    (htemplates : templates.map Prod.fst = datagram.workloadTemplates)
    (initiator responder : DatagramReplayRole) :
    ∃ document, udpWorkloadDocument datagram capture path intent initiator responder templates =
      some document := by
  obtain ⟨wait, hwait, hwaitPos⟩ := hvalid.portWaitTimeout
  obtain ⟨timeout, htimeout, htimeoutPos⟩ := hvalid.jobTimeout
  obtain ⟨duration, hduration, hdurationPos⟩ := hvalid.duration
  obtain ⟨bindings, workload, hbindings, hworkload⟩ :=
    exists_workload hvalid.fps hne hbounded htemplates
  obtain ⟨hpps, hbps⟩ := estimated_pos hvalid.fps hne
  have hlimits : workloadLimits wait timeout = some ⟨wait, timeout, hwaitPos, htimeoutPos⟩ :=
    dif_pos ⟨hwaitPos, htimeoutPos⟩
  have hrun : workloadRun intent.fps (estimatedPps datagram intent.fps)
      (estimatedBpsL1 datagram intent.fps) duration =
        some ⟨intent.fps, _, _, duration, hvalid.fps, hpps, hbps, hdurationPos⟩ :=
    dif_pos ⟨hvalid.fps, hpps, hbps, hdurationPos⟩
  have hshort : (workloadName capture).length ≤ 128 := by
    have hsuffix : "-udp-workload".toList.length = 13 := by decide
    have hname := hvalid.name
    rw [workloadName, List.length_append, hsuffix]
    omega
  unfold udpWorkloadDocument
  rw [hwait, htimeout, hduration]
  dsimp only [Option.bind_eq_bind, Option.bind_some]
  rw [hlimits, Option.bind_some, hbindings, Option.bind_some, hworkload, Option.bind_some, hrun,
    Option.bind_some, dif_pos hshort]
  exact ⟨_, rfl⟩

end Consistent

/-! ### No inconsistency -/

section Errors

variable {policy : SafetyPolicy} {path : LabPath} {intent : UdpWorkloadIntent}
  {initiator responder : DatagramReplayRole}

theorem workloadRoles_ne : workloadRoles path intent ≠ .error .inconsistent := by
  unfold workloadRoles
  split
  · refine bind_ne_error (planCheck_ne (by decide)) fun _ _ => ?_
    split
    · exact nofun
    · exact fun heq => absurd (Except.error.inj heq) (by decide)
  · exact fun heq => absurd (Except.error.inj heq) (by decide)

theorem checkNetworks_ne {label : String} {address : AddressText}
    (h : PlanningError.testPlan ("UDP workload " ++ label ++ " IPv4 is outside allowedCidrs") ≠
      .inconsistent) : checkNetworks policy label address ≠ .error .inconsistent := by
  unfold checkNetworks
  dsimp only
  split
  · exact fun heq => h (Except.error.inj heq)
  · split
    · exact planCheck_ne h
    · exact fun heq => absurd (Except.error.inj heq) (by decide)

theorem checkRoles_ne : checkRoles policy initiator responder ≠ .error .inconsistent := by
  refine bind_ne_error (checkNetworks_ne (by decide)) fun _ _ => ?_
  refine bind_ne_error (checkNetworks_ne (by decide)) fun _ _ => ?_
  exact bind_ne_error (planCheck_ne (by decide)) fun _ _ => planCheck_ne (by decide)

/-- A consistent analysis and a valid request are never reported as an inconsistent analysis. -/
theorem planTemplates_ne {datagram : DatagramCaptureAnalysis}
    {identity : UdpWorkloadDocument → Text} {capture : CaptureResourceDocument CaptureAnalysis}
    (hreported : ∀ template ∈ datagram.workloadTemplates,
      ∃ flow ∈ datagram.flows, flow.id = template.representativeFlowId)
    (hne : datagram.workloadTemplates ≠ []) (hbounded : datagram.workloadTemplates.length ≤ 256)
    (hvalid : intent.Valid capture path) :
    planTemplates datagram identity policy capture path intent initiator responder ≠
      .error .inconsistent := by
  obtain ⟨templates, htemplates, hmap⟩ := exists_representatives hreported
  obtain ⟨document, hdocument⟩ := exists_document hne hbounded hvalid hmap initiator responder
  unfold planTemplates
  rw [htemplates]
  show (do
    planCheck _ _
    planCheck _ _
    match udpWorkloadDocument datagram capture path intent initiator responder templates with
      | none => _
      | some document => _) ≠ Except.error _
  refine bind_ne_error (planCheck_ne (by decide)) fun _ _ => ?_
  refine bind_ne_error (planCheck_ne (by decide)) fun _ _ => ?_
  rw [hdocument]
  refine bind_ne_error (planCheck_ne (by decide)) fun _ _ => ?_
  exact bind_ne_error (planCheck_ne (by decide)) fun _ _ => nofun

end Errors

theorem finish_of_analysis {sha256 : Bytes → Capture.Digest} {packets : List Capture.Packet}
    {analysis : CaptureAnalysis} {datagram : DatagramCaptureAnalysis}
    (hanalysis : Capture.analyzeCapture sha256 packets = .ok analysis)
    (hdatagram : analysis.datagram = some datagram) :
    (Capture.DatagramFlowAnalyzer.scan {} packets).finish sha256 {} = .ok (some datagram) := by
  rw [← (@Capture.scanCapture_analyzers packets).2]
  simp only [Capture.analyzeCapture, bind_eq_ok, Capture.validated_eq_ok] at hanalysis
  obtain ⟨stateful, _, datagram', hfinish, _, rfl⟩ := hanalysis
  exact hfinish.trans (congrArg Except.ok hdatagram)

open Capture (sampleUdp sampleHash sampleExchange)

/-- A question, and the same question after the idle timeout. -/
def recurringExchange : List Capture.Packet :=
  [⟨0, 60, sampleUdp 1 2 4000 53 .empty⟩, ⟨100, 60, sampleUdp 1 2 4000 53 .empty⟩]

/-- The flows of a capture that are one exchange have no collision. -/
theorem idCollisionFree_of_exchange {flows : List Capture.DatagramFlow}
    {exchange : Capture.Endpoint × Capture.Endpoint × List Capture.Datagram}
    (h : ∀ flow ∈ flows, flow.exchange = exchange) : Capture.IdCollisionFree sampleHash flows := by
  rintro octets ⟨f, hf, hoctets⟩ octets' ⟨g, hg, hoctets'⟩ -
  have hsame : f.exchange = g.exchange := (h f hf).trans (h g hg).symm
  obtain ⟨hinitiator, hresponder, hdatagrams⟩ : f.initiator = g.initiator ∧
      f.responder = g.responder ∧ f.datagrams = g.datagrams := by
    simpa [Capture.DatagramFlow.exchange] using hsame
  unfold Capture.DatagramFlow.flowOctets at hoctets hoctets'
  rw [hinitiator, hresponder, hdatagrams] at hoctets
  exact Except.ok.inj (hoctets.symm.trans hoctets')

/-- A capture of one exchange, over and over, is analyzed. -/
theorem exists_sampleAnalysis {packets : List Capture.Packet}
    (hsessions : (Capture.StatefulSessionAnalyzer.scan {} packets).finish sampleHash {} = .ok none)
    (hflows : ∀ flow ∈ (Capture.DatagramFlowAnalyzer.scan {} packets).flows, flow.Representable)
    (hne : (Capture.DatagramFlowAnalyzer.scan {} packets).flows ≠ []) :
    ∃ analysis datagram, Capture.analyzeCapture sampleHash packets = .ok analysis ∧
      analysis.datagram = some datagram := by
  obtain ⟨datagram, hdatagram⟩ :=
    @Capture.exists_report sampleHash {} _ hflows hne (by decide)
  obtain ⟨analysis, hanalysis⟩ := Capture.analyzeCapture_ok_iff.mpr ⟨⟨_, hsessions⟩, _, hdatagram⟩
  refine ⟨analysis, datagram, hanalysis, ?_⟩
  simp only [Capture.analyzeCapture, bind_eq_ok, Capture.validated_eq_ok,
    (@Capture.scanCapture_analyzers packets).2] at hanalysis
  obtain ⟨_, _, datagram', hfinish, _, rfl⟩ := hanalysis
  exact Except.ok.inj (hfinish.symm.trans hdatagram)

end TrexCli
