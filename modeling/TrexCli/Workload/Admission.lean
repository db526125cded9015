import Mathlib
import TrexCli.Workload.Documents

/-!
# Workload admission

The checks of `_validate_policy` for UDP workloads and stateful replays, and what the two adapters
install for an accepted document. The checks look at the totals the document declares; the adapters
install one stream for each datagram of each template, or one client template for each template, at
the rate that template declares. Nothing compares the two, so a policy bounds what runs exactly when
the declared totals do (`load_within_iff_declared`).
-/

namespace TrexCli

/-! ### Admission -/

section Checks

variable (logicalPorts : List PortId) (policy : SafetyPolicy)

/-- `_validate_policy` for a UDP workload. -/
def validateUdpWorkload (spec : UdpWorkloadSpec) : Except Exc Unit := do
  policy.checkLimits spec.limits
  checkPorts logicalPorts [spec.initiator.port, spec.responder.port]
  require (spec.run.duration ≤ policy.maxRunDuration)
    (unsafeRequest "UDP workload duration exceeds maxRunDuration")
  require (spec.run.estimatedPps ≤ policy.maxPps)
    (unsafeRequest "UDP workload estimatedPps exceeds maxPps")
  require (spec.run.estimatedBpsL1 ≤ policy.maxBpsL1)
    (unsafeRequest "UDP workload estimatedBpsL1 exceeds maxBpsL1")
  require (∀ mac ∈ [spec.initiator.mac, spec.responder.mac], policy.allowsMacText mac = true)
    (unsafeRequest "UDP workload MAC endpoint is outside allowedMacPrefixes")
  let addresses ← parseAddresses [spec.initiator.ipv4, spec.responder.ipv4]
  require (∀ a ∈ addresses, policy.allowsAddress a = true)
    (unsafeRequest "UDP workload IPv4 endpoint is outside allowedCidrs")

/-- The checks of an address pool. -/
def validatePool (label : String) (pool : Ipv4Pool) : Except Exc Unit := do
  require (pool.cardinality ≤ policy.maxAddressPoolSize)
    { code := "ADDRESS_POOL_EXHAUSTED", category := "POLICY"
      message := label ++ " IPv4 pool exceeds maxAddressPoolSize" }
  require (ipv4RangeAllowed pool.first pool.last policy.allowedCidrs = true)
    (unsafeRequest (label ++ " IPv4 pool is outside allowedCidrs"))

/-- `_validate_policy` for a stateful replay. -/
def validateStatefulReplay (spec : StatefulReplaySpec) : Except Exc Unit := do
  policy.checkLimits spec.limits
  checkPorts logicalPorts [spec.client.port, spec.server.port]
  require (spec.run.duration ≤ policy.maxRunDuration)
    (unsafeRequest "stateful replay duration exceeds maxRunDuration")
  require (spec.run.cps ≤ policy.maxCps) (unsafeRequest "stateful replay CPS exceeds maxCps")
  require (spec.run.maxActiveConnections ≤ policy.maxActiveConnections)
    (unsafeRequest "stateful replay active connection limit exceeds SafetyPolicy")
  validatePool policy "client" spec.client.ipv4Pool
  validatePool policy "server" spec.server.ipv4Pool
  require (spec.run.maxActiveConnections ≤
      spec.client.ipv4Pool.cardinality * spec.client.transportPortPool.cardinality)
    (resourceError "PORT_POOL_EXHAUSTED" "maxActiveConnections exceeds client address/port capacity")

/-- `_validate_policy` for a workload. -/
def validateWorkload : WorkloadDocument → Except Exc Unit
  | .udpWorkload spec => validateUdpWorkload logicalPorts policy spec
  | .statefulReplay spec => validateStatefulReplay logicalPorts policy spec

end Checks

/-! ### Preparation -/

/-- `Datagram` -/
structure Datagram where
  fromInitiator : Bool
  offsetMicroseconds : Nat
  payload : List UInt8

/-- `DatagramTemplate` -/
structure DatagramTemplate where
  digest : String
  templateDigest : String
  initiatorPort : Nat
  responderPort : Nat
  datagrams : List Datagram

/-- `SessionTemplate` -/
structure SessionTemplate where
  digest : String
  templateDigest : String
  exchanges : List (Bool × List UInt8)

/-- A capture of the catalog: its size, and what the two analyzers extract from it for an id, or the
text of the error they raise. -/
structure CaptureObject where
  size : Nat
  datagramTemplate : String → Except String DatagramTemplate
  sessionTemplate : String → Except String SessionTemplate

/-- The part of an engine's configuration and of its server that preparation looks at. -/
structure WorkloadEngine where
  captureRoot : Option (String → Option CaptureObject)
  portMapping : PortId → Nat
  dataPathThreads : Nat

/-- `_UdpStream`: a stream of one datagram, at a constant rate. -/
structure UdpStream where
  templateId : String
  templateDigest : String
  occurrenceCount : Nat
  weight : ℚ
  fps : ℚ
  fromInitiator : Bool
  txPort : Nat
  rxPort : Nat
  payloadBytes : Nat

/-- The bits of the stream's frame on the wire: the frame, its checksum, the preamble and the gap. -/
def UdpStream.frameBitsL1 (s : UdpStream) : ℚ := (max 64 (46 + s.payloadBytes) + 20 : Nat) * 8

/-- `_PreparedTemplate`: what a client template of the profile is built from. -/
structure PreparedTemplate where
  id : String
  serverPort : Nat
  cps : ℚ
  maxActiveConnections : Nat
  occurrenceCount : Nat
  weight : ℚ
  capture : SessionTemplate

/-- What preparation installs. -/
inductive Installed where
  | streams (streams : List UdpStream)
  | templates (templates : List PreparedTemplate)

section Preparation

variable (engine : WorkloadEngine)

/-- The capture object of a document, as it is stored. -/
def WorkloadEngine.stored (binding : CaptureBinding) : Option CaptureObject :=
  engine.captureRoot.bind fun root => root binding.digest

/-- The checks of the capture object. -/
def openCapture (subject : String) (binding : CaptureBinding) : Except Exc CaptureObject := do
  require (engine.captureRoot.isSome = true)
    (resourceError "CAPABILITY_MISMATCH" (subject ++ " requires an Agent captureRoot"))
  match engine.stored binding with
  | none => .error (.trexCli (resourceError "CAPABILITY_MISMATCH"
      "the frozen Capture Resource object is unavailable or changed"))
  | some capture => do
    require (capture.size = binding.size)
      (resourceError "CAPABILITY_MISMATCH"
        "the frozen Capture Resource object is unavailable or changed")
    pure capture

/-- `_udp_templates`, for one binding. -/
def udpTemplate (capture : CaptureObject) (binding : DatagramTemplateBinding) :
    Except Exc DatagramTemplate :=
  match capture.datagramTemplate binding.representativeFlow.id with
  | .error message => .error (.exception message)
  | .ok template => do
    require (template.digest = binding.representativeFlow.digest)
      (resourceError "RESOURCE_CHANGED"
        "a representative Datagram Flow digest does not match the Plan")
    require (template.templateDigest = binding.digest)
      (resourceError "RESOURCE_CHANGED"
        "an extracted Datagram Template digest does not match the Plan")
    pure template

/-- The streams `_install_udp_streams` adds for one template. -/
def udpStreams (spec : UdpWorkloadSpec) (binding : DatagramTemplateBinding)
    (template : DatagramTemplate) : List UdpStream :=
  template.datagrams.map fun datagram =>
    let initiatorPort := engine.portMapping spec.initiator.port
    let responderPort := engine.portMapping spec.responder.port
    { templateId := binding.id
      templateDigest := binding.digest
      occurrenceCount := binding.occurrenceCount
      weight := binding.weight
      fps := binding.fps
      fromInitiator := datagram.fromInitiator
      txPort := if datagram.fromInitiator then initiatorPort else responderPort
      rxPort := if datagram.fromInitiator then responderPort else initiatorPort
      payloadBytes := datagram.payload.length }

/-- `_prepare_sync` of the STL engine for a UDP workload, after `validate`. -/
def prepareUdpWorkload (spec : UdpWorkloadSpec) : Except Exc (List UdpStream) := do
  let capture ← openCapture engine "UDP workload" spec.capture
  let templates ← spec.workload.templates.mapM fun binding => do
    let template ← udpTemplate capture binding
    pure (udpStreams engine spec binding template)
  pure templates.flatten

/-- `_prepared_workload_template`, after the digest checks of `_validate_sync`. -/
def preparedTemplate (capture : CaptureObject) (binding : SessionTemplateBinding) :
    Except Exc PreparedTemplate :=
  match capture.sessionTemplate binding.representativeSession.id with
  | .error message => .error (.exception message)
  | .ok template => do
    require (template.digest = binding.representativeSession.digest)
      (resourceError "RESOURCE_CHANGED"
        "a representative Session digest does not match the Plan")
    require (template.templateDigest = binding.digest)
      (resourceError "RESOURCE_CHANGED"
        "an extracted workload template digest does not match the Plan")
    pure
      { id := binding.id
        serverPort := binding.representativeSession.serverPort
        cps := binding.cps
        maxActiveConnections := binding.maxActiveConnections
        occurrenceCount := binding.occurrenceCount
        weight := binding.weight
        capture := template }

/-- The one template of a single session, which runs at the rate of the document. -/
def sessionTemplate (capture : CaptureObject) (run : StatefulReplayRun) (session : SessionBinding) :
    Except Exc PreparedTemplate :=
  match capture.sessionTemplate session.id with
  | .error message => .error (.exception message)
  | .ok template => do
    require (template.digest = session.digest)
      (resourceError "RESOURCE_CHANGED"
        "the extracted Session Template digest does not match the Plan")
    pure
      { id := "template_" ++ String.ofList ((template.templateDigest.toList.drop 7).take 24)
        serverPort := session.serverPort
        cps := run.cps
        maxActiveConnections := run.maxActiveConnections
        occurrenceCount := 1
        weight := 1
        capture := template }

/-- The prepared templates of a stateful replay. -/
def preparedTemplates (capture : CaptureObject) (spec : StatefulReplaySpec) :
    Except Exc (List PreparedTemplate) :=
  match spec.shape with
  | .session session => do
    let template ← sessionTemplate capture spec.run session
    pure [template]
  | .workload workload => workload.templates.mapM (preparedTemplate capture)

/-- `_validate_sync` and `_prepare_sync` of the ASTF engine. -/
def prepareStatefulReplay (spec : StatefulReplaySpec) :
    Except Exc (List PreparedTemplate) := do
  let capture ← openCapture engine "stateful replay" spec.capture
  let templates ← preparedTemplates capture spec
  let clientPort := engine.portMapping spec.client.port
  require (clientPort % 2 = 0 ∧ engine.portMapping spec.server.port = clientPort + 1)
    (resourceError "CAPABILITY_MISMATCH"
      "ASTF requires client/server roles on an even/odd adjacent TRex port pair")
  require (spec.client.transportPortPool.first = 1024 ∧ spec.client.transportPortPool.last = 65535)
    { code := "CAPABILITY_MISMATCH", category := "ENGINE"
      message := "TRex ASTF v3.08 only supports its managed 1024-65535 client port pool" }
  require (engine.dataPathThreads < spec.client.ipv4Pool.cardinality ∧
      engine.dataPathThreads < spec.server.ipv4Pool.cardinality)
    (resourceError "ADDRESS_POOL_EXHAUSTED"
      "each ASTF IPv4 pool must contain more addresses than data-path threads")
  require (∀ template ∈ templates,
      (templates.filter fun other => other.serverPort = template.serverPort).length *
        (engine.dataPathThreads + 1) ≤ spec.server.ipv4Pool.cardinality)
    (resourceError "ADDRESS_POOL_EXHAUSTED"
      "server IPv4 pool cannot disambiguate workload templates sharing a port")
  pure templates

/-- What the engine of a document's kind installs for it. -/
def prepareWorkload : WorkloadDocument → Except Exc Installed
  | .udpWorkload spec => (prepareUdpWorkload engine spec).map .streams
  | .statefulReplay spec => (prepareStatefulReplay engine spec).map .templates

end Preparation

/-- What runs stays within the policy. -/
def Installed.Within (policy : SafetyPolicy) : Installed → Prop
  | .streams all =>
    (all.map fun s => s.fps).sum ≤ policy.maxPps ∧
      (all.map fun s => s.fps * s.frameBitsL1).sum ≤ policy.maxBpsL1
  | .templates all =>
    (all.map fun t => t.cps).sum ≤ policy.maxCps ∧
      (all.map fun t => t.maxActiveConnections).sum ≤ policy.maxActiveConnections

/-! ### What a document declares -/

/-- The datagrams the capture has for a binding. -/
def CaptureObject.datagrams (capture : CaptureObject) (binding : DatagramTemplateBinding) :
    List Datagram :=
  match capture.datagramTemplate binding.representativeFlow.id with
  | .ok template => template.datagrams
  | .error _ => []

/-- The bits on the wire of a datagram. -/
def Datagram.bitsL1 (d : Datagram) : ℚ := (max 64 (46 + d.payload.length) + 20 : Nat) * 8

/-- The rate and the connections of the templates of a stateful replay: a single session is one
template, with the values of the run. -/
def ReplayShape.load (run : StatefulReplayRun) : ReplayShape → ℚ × Nat
  | .session _ => (run.cps, run.maxActiveConnections)
  | .workload binding =>
    ((binding.templates.map fun b => b.cps).sum,
      (binding.templates.map fun b => b.maxActiveConnections).sum)

/-- The declared totals of the document are at least what its templates add up to. -/
def WorkloadDocument.Honest (engine : WorkloadEngine) : WorkloadDocument → Prop
  | .udpWorkload spec => ∀ capture, engine.stored spec.capture = some capture →
    (spec.workload.templates.map fun b => b.fps * (capture.datagrams b).length).sum ≤
        spec.run.estimatedPps ∧
      (spec.workload.templates.map fun b =>
        b.fps * ((capture.datagrams b).map Datagram.bitsL1).sum).sum ≤ spec.run.estimatedBpsL1
  | .statefulReplay spec =>
    (spec.shape.load spec.run).1 ≤ spec.run.cps ∧
      (spec.shape.load spec.run).2 ≤ spec.run.maxActiveConnections


/-! ### What preparation installs -/

section Installed

variable {engine : WorkloadEngine}

theorem openCapture_eq_ok {subject : String} {binding : CaptureBinding} {capture : CaptureObject}
    (h : openCapture engine subject binding = .ok capture) : engine.stored binding = some capture := by
  unfold openCapture at h
  simp only [check_bind_eq_ok] at h
  obtain ⟨-, h⟩ := h
  split at h
  · cases h
  · simp only [check_bind_eq_ok] at h
    obtain ⟨-, h⟩ := h
    cases h
    assumption

/-- A template of a binding has the datagrams the capture has for it. -/
theorem udpTemplate_eq_ok {capture : CaptureObject} {binding : DatagramTemplateBinding}
    {template : DatagramTemplate} (h : udpTemplate capture binding = .ok template) :
    template.datagrams = capture.datagrams binding := by
  unfold udpTemplate at h
  unfold CaptureObject.datagrams
  split at h
  · cases h
  · rename_i extracted hextracted
    simp only [check_bind_eq_ok] at h
    obtain ⟨-, -, h⟩ := h
    cases h
    rw [hextracted]

/-- The frames and the bits of the streams of a template, in a second. -/
theorem udpStreams_load (spec : UdpWorkloadSpec) (binding : DatagramTemplateBinding)
    (template : DatagramTemplate) :
    ((udpStreams engine spec binding template).map fun s => s.fps).sum =
        binding.fps * template.datagrams.length ∧
      ((udpStreams engine spec binding template).map fun s => s.fps * s.frameBitsL1).sum =
        binding.fps * (template.datagrams.map Datagram.bitsL1).sum := by
  have hbits : ((udpStreams engine spec binding template).map fun s => s.fps * s.frameBitsL1) =
      template.datagrams.map fun d => binding.fps * d.bitsL1 := by
    unfold udpStreams
    rw [List.map_map]
    rfl
  constructor
  · unfold udpStreams
    rw [List.map_map]
    simp [Function.comp_def, mul_comm]
  · rw [hbits, List.sum_map_mul_left]

/-- What the streams of a UDP workload add up to. -/
theorem prepareUdpWorkload_load {spec : UdpWorkloadSpec} {streams : List UdpStream}
    (h : prepareUdpWorkload engine spec = .ok streams) :
    ∃ capture, engine.stored spec.capture = some capture ∧
      (streams.map fun s => s.fps).sum =
        (spec.workload.templates.map fun b => b.fps * (capture.datagrams b).length).sum ∧
      (streams.map fun s => s.fps * s.frameBitsL1).sum =
        (spec.workload.templates.map fun b =>
          b.fps * ((capture.datagrams b).map Datagram.bitsL1).sum).sum := by
  unfold prepareUdpWorkload at h
  obtain ⟨capture, hcapture, h⟩ := bind_eq_ok.mp h
  obtain ⟨lists, hlists, h⟩ := bind_eq_ok.mp h
  cases h
  refine ⟨capture, openCapture_eq_ok hcapture, ?_⟩
  have hload : List.Forall₂ (fun b streams =>
      (streams.map fun s => s.fps).sum = b.fps * (capture.datagrams b).length ∧
        (streams.map fun s => s.fps * s.frameBitsL1).sum =
          b.fps * ((capture.datagrams b).map Datagram.bitsL1).sum) spec.workload.templates lists := by
    refine (mapM_eq_ok.mp hlists).imp fun binding list hlist => ?_
    obtain ⟨template, htemplate, hlist⟩ := bind_eq_ok.mp hlist
    cases hlist
    rw [← udpTemplate_eq_ok htemplate]
    exact udpStreams_load spec binding template
  constructor
  · exact (sum_of_forall₂ (hload.imp fun _ _ hsums => hsums.1.symm)).symm
  · exact (sum_of_forall₂ (hload.imp fun _ _ hsums => hsums.2.symm)).symm

theorem preparedTemplate_eq_ok {capture : CaptureObject} {binding : SessionTemplateBinding}
    {template : PreparedTemplate} (h : preparedTemplate capture binding = .ok template) :
    template.cps = binding.cps ∧ template.maxActiveConnections = binding.maxActiveConnections := by
  unfold preparedTemplate at h
  split at h
  · cases h
  · simp only [check_bind_eq_ok] at h
    obtain ⟨-, -, h⟩ := h
    cases h
    exact ⟨rfl, rfl⟩

theorem sessionTemplate_eq_ok {capture : CaptureObject} {run : StatefulReplayRun}
    {session : SessionBinding} {template : PreparedTemplate}
    (h : sessionTemplate capture run session = .ok template) :
    template.cps = run.cps ∧ template.maxActiveConnections = run.maxActiveConnections := by
  unfold sessionTemplate at h
  split at h
  · cases h
  · simp only [check_bind_eq_ok] at h
    obtain ⟨-, h⟩ := h
    cases h
    exact ⟨rfl, rfl⟩

/-- What the client templates of a stateful replay add up to. -/
theorem preparedTemplates_load {capture : CaptureObject} {spec : StatefulReplaySpec}
    {templates : List PreparedTemplate} (h : preparedTemplates capture spec = .ok templates) :
    ((templates.map fun t => t.cps).sum, (templates.map fun t => t.maxActiveConnections).sum) =
      spec.shape.load spec.run := by
  unfold preparedTemplates at h
  cases hshape : spec.shape with
  | session session =>
    rw [hshape] at h
    obtain ⟨template, htemplate, h⟩ := bind_eq_ok.mp h
    cases h
    obtain ⟨hcps, hconnections⟩ := sessionTemplate_eq_ok htemplate
    simp [ReplayShape.load, hcps, hconnections]
  | workload workload =>
    rw [hshape] at h
    have hload := (mapM_eq_ok.mp h).imp fun _ _ => preparedTemplate_eq_ok
    have hcps : workload.templates.map (fun b => b.cps) = templates.map fun t => t.cps :=
      List.forall₂_eq_eq_eq ▸ List.forall₂_map_left_iff.mpr
        (List.forall₂_map_right_iff.mpr (hload.imp fun _ _ hsame => hsame.1.symm))
    have hconnections : workload.templates.map (fun b => b.maxActiveConnections) =
        templates.map fun t => t.maxActiveConnections :=
      List.forall₂_eq_eq_eq ▸ List.forall₂_map_left_iff.mpr
        (List.forall₂_map_right_iff.mpr (hload.imp fun _ _ hsame => hsame.2.symm))
    simp [ReplayShape.load, hcps, hconnections]

theorem prepareStatefulReplay_load {spec : StatefulReplaySpec} {templates : List PreparedTemplate}
    (h : prepareStatefulReplay engine spec = .ok templates) :
    ((templates.map fun t => t.cps).sum, (templates.map fun t => t.maxActiveConnections).sum) =
      spec.shape.load spec.run := by
  unfold prepareStatefulReplay at h
  obtain ⟨capture, -, h⟩ := bind_eq_ok.mp h
  obtain ⟨prepared, hprepared, h⟩ := bind_eq_ok.mp h
  simp only [check_bind_eq_ok] at h
  obtain ⟨-, -, -, -, h⟩ := h
  cases h
  exact preparedTemplates_load hprepared

end Installed

/-! ### The bound -/

section Bound

variable {engine : WorkloadEngine} {logicalPorts : List PortId}

/-- What the checks of a UDP workload say about its rates. -/
theorem validateUdpWorkload_rates {policy : SafetyPolicy} {spec : UdpWorkloadSpec}
    (h : validateUdpWorkload logicalPorts policy spec = .ok ()) :
    spec.run.estimatedPps ≤ policy.maxPps ∧ spec.run.estimatedBpsL1 ≤ policy.maxBpsL1 := by
  simp only [validateUdpWorkload, check_bind_eq_ok, require_eq_ok] at h
  exact ⟨h.2.2.2.1, h.2.2.2.2.1⟩

/-- A policy whose rates are those the document declares accepts it just the same. -/
theorem validateUdpWorkload_tight {policy : SafetyPolicy} {spec : UdpWorkloadSpec}
    (h : validateUdpWorkload logicalPorts policy spec = .ok ()) :
    validateUdpWorkload logicalPorts
      { policy with maxPps := spec.run.estimatedPps, maxBpsL1 := spec.run.estimatedBpsL1 } spec =
      .ok () := by
  simp only [validateUdpWorkload, check_bind_eq_ok, require_eq_ok] at h ⊢
  obtain ⟨hlimits, hports, hduration, -, -, hrest⟩ := h
  exact ⟨hlimits, hports, hduration, le_rfl, le_rfl, hrest⟩

theorem validateStatefulReplay_rates {policy : SafetyPolicy} {spec : StatefulReplaySpec}
    (h : validateStatefulReplay logicalPorts policy spec = .ok ()) :
    spec.run.cps ≤ policy.maxCps ∧
      spec.run.maxActiveConnections ≤ policy.maxActiveConnections := by
  simp only [validateStatefulReplay, check_bind_eq_ok, require_eq_ok] at h
  exact ⟨h.2.2.2.1, h.2.2.2.2.1⟩

theorem validateStatefulReplay_tight {policy : SafetyPolicy} {spec : StatefulReplaySpec}
    (h : validateStatefulReplay logicalPorts policy spec = .ok ()) :
    validateStatefulReplay logicalPorts
      { policy with maxCps := spec.run.cps, maxActiveConnections := spec.run.maxActiveConnections }
      spec = .ok () := by
  simp only [validateStatefulReplay, check_bind_eq_ok, require_eq_ok] at h ⊢
  obtain ⟨hlimits, hports, hduration, -, -, hrest⟩ := h
  exact ⟨hlimits, hports, hduration, le_rfl, le_rfl, hrest⟩

/-- A document is safe to run under every policy that accepts it exactly when the totals it declares
are at least what its templates add up to. -/
theorem load_within_iff_declared {doc : WorkloadDocument} {installed : Installed}
    (hprep : prepareWorkload engine doc = .ok installed)
    (hadm : ∃ policy, validateWorkload logicalPorts policy doc = .ok ()) :
    (∀ policy, validateWorkload logicalPorts policy doc = .ok () → installed.Within policy) ↔
      doc.Honest engine := by
  obtain ⟨accepting, haccepting⟩ := hadm
  cases doc with
  | udpWorkload spec =>
    cases hresult : prepareUdpWorkload engine spec with
    | error e =>
      rw [prepareWorkload, hresult] at hprep
      cases hprep
    | ok streams =>
      rw [prepareWorkload, hresult] at hprep
      cases hprep
      obtain ⟨capture, hcapture, hpps, hbps⟩ := prepareUdpWorkload_load hresult
      constructor
      · intro h other hother
        obtain rfl : capture = other := Option.some.inj (hcapture.symm.trans hother)
        obtain ⟨hwithinPps, hwithinBps⟩ := h _ (validateUdpWorkload_tight haccepting)
        rw [← hpps, ← hbps]
        exact ⟨hwithinPps, hwithinBps⟩
      · intro h policy hpolicy
        obtain ⟨hdeclaredPps, hdeclaredBps⟩ := h capture hcapture
        obtain ⟨hmaxPps, hmaxBps⟩ := validateUdpWorkload_rates hpolicy
        rw [← hpps] at hdeclaredPps
        rw [← hbps] at hdeclaredBps
        exact ⟨hdeclaredPps.trans hmaxPps, hdeclaredBps.trans hmaxBps⟩
  | statefulReplay spec =>
    cases hresult : prepareStatefulReplay engine spec with
    | error e =>
      rw [prepareWorkload, hresult] at hprep
      cases hprep
    | ok templates =>
      rw [prepareWorkload, hresult] at hprep
      cases hprep
      have hload := prepareStatefulReplay_load hresult
      rw [WorkloadDocument.Honest, ← hload]
      constructor
      · intro h
        exact h _ (validateStatefulReplay_tight haccepting)
      · rintro ⟨hcps, hconnections⟩ policy hpolicy
        obtain ⟨hmaxCps, hmaxConnections⟩ := validateStatefulReplay_rates hpolicy
        exact ⟨hcps.trans hmaxCps, hconnections.trans hmaxConnections⟩

end Bound

/-- A digest of the form the documents ask for. -/
def zeroDigest : String :=
  "sha256:0000000000000000000000000000000000000000000000000000000000000000"

/-- An engine whose captures all hold one flow of one small datagram. -/
def oneDatagramEngine : WorkloadEngine where
  captureRoot := some fun _ => some
    { size := 100
      datagramTemplate := fun _ => .ok
        ⟨zeroDigest, zeroDigest, 5000, 53, [⟨true, 0, [1, 2, 3, 4]⟩]⟩
      sessionTemplate := fun _ => .error "no session" }
  portMapping := id
  dataPathThreads := 1

/-- A workload of one datagram a million times a second, with the totals its author chose. -/
def megahertzSpec (estimatedPps estimatedBpsL1 : ℚ) (hpps : 0 < estimatedPps)
    (hbps : 0 < estimatedBpsL1) : UdpWorkloadSpec where
  limits := ⟨300000, 28800000, Lab.limits_pos⟩
  capture :=
    { name := "dns", revision := 1, digest := zeroDigest, size := 100, packetCount := 1
      durationSeconds := 0, normalizedDurationSeconds := 0, nonMonotonicTimestampCount := 0
      maximumBackwardJumpSeconds := 0, macEndpoints := [], ipv4Endpoints := []
      hasBroadcast := false, hasMulticast := false, valid := Lab.capture_valid }
  workload :=
    { sourceFlowCount := 1, templateCount := 1
      templates :=
        [{ id := "udptemplate_000000000000000000000000", digest := zeroDigest
           representativeFlow :=
             ⟨"udpflow_000000000000000000000000", zeroDigest, 5000, 53, 1, 1, 0, 4, 0, 0, 84⟩
           occurrenceCount := 1, weight := 1, fps := 1000000, valid := by norm_num }]
      bounded := by decide, countConsistent := rfl, flowsConsistent := rfl
      weightsConsistent := by norm_num }
  initiator := ⟨0, "02:00:00:00:00:01", ⟨some ⟨.v4, 0xC6120001, Lab.client_lt⟩, true⟩⟩
  responder := ⟨1, "02:00:00:00:00:02", ⟨some ⟨.v4, 0xC6120002, Lab.server_lt⟩, true⟩⟩
  run := ⟨1000000, estimatedPps, estimatedBpsL1, 1000, by norm_num, hpps, hbps, by decide⟩

/-- The stream of the one datagram. -/
def megahertzStream : UdpStream :=
  ⟨"udptemplate_000000000000000000000000", zeroDigest, 1, 1, 1000000, true, 0, 1, 4⟩

/-- A policy of a thousand packets in a second. -/
def kilohertzPolicy : SafetyPolicy where
  version := "lab"
  allowedCidrs := [⟨.v4, 0xC6120000, 15, Lab.network_le⟩]
  allowedMacPrefixes := []
  allowArbitraryUnicastMac := true
  maxJobTimeout := 28800000
  maxPortWaitTimeout := 300000
  maxRunDuration := 60000
  maxBurstPackets := 1000
  maxPercentL1 := 100
  maxPps := 1000
  maxBpsL1 := 1000000
  maxBpsL2 := 1000000
  maxCps := 1000
  maxActiveConnections := 1000
  maxAddressPoolSize := 1000
  calibrationBootstrapMaxPercentL1 := 1
  maxCalibrationGrowthFactor := 2
  maxCalibrationAge := 1
  percentL1 := Lab.percentL1_bounds
  growthFactor := Lab.double_growth
  prefixes := Lab.arbitrary_prefixes

theorem megahertzSpec_accepted {policy : SafetyPolicy} {pps bps : ℚ} (hpps : 0 < pps) (hbps : 0 < bps)
    (hpolicy : policy = { kilohertzPolicy with maxPps := policy.maxPps, maxBpsL1 := policy.maxBpsL1 })
    (hmaxPps : pps ≤ policy.maxPps) (hmaxBps : bps ≤ policy.maxBpsL1) :
    validateWorkload [0, 1] policy (.udpWorkload (megahertzSpec pps bps hpps hbps)) = .ok () := by
  rw [hpolicy]
  simp only [validateWorkload, validateUdpWorkload, check_bind_eq_ok, require_eq_ok]
  have hduration : 1000 ≤ kilohertzPolicy.maxRunDuration := by decide
  refine ⟨rfl, rfl, hduration, hmaxPps, hmaxBps, fun mac _ => ?_, rfl⟩
  simp [SafetyPolicy.allowsMacText, kilohertzPolicy]

theorem megahertzSpec_prepared {pps bps : ℚ} (hpps : 0 < pps) (hbps : 0 < bps) :
    prepareWorkload oneDatagramEngine (.udpWorkload (megahertzSpec pps bps hpps hbps)) =
      .ok (.streams [megahertzStream]) := rfl

theorem load_within_iff_declared_megahertz :
    (∀ policy, validateWorkload [0, 1] policy (.udpWorkload (megahertzSpec 1000000 672000000
        (by norm_num) (by norm_num))) = .ok () →
      (Installed.streams [megahertzStream]).Within policy) ↔
      (WorkloadDocument.udpWorkload (megahertzSpec 1000000 672000000 (by norm_num)
        (by norm_num))).Honest oneDatagramEngine :=
  load_within_iff_declared (megahertzSpec_prepared _ _)
    ⟨{ kilohertzPolicy with maxPps := 1000000, maxBpsL1 := 672000000 },
      megahertzSpec_accepted _ _ rfl le_rfl le_rfl⟩

/-- A document that declares one packet in a second, and sends a million. -/
theorem not_within_megahertz :
    ∃ installed, prepareWorkload oneDatagramEngine (.udpWorkload (megahertzSpec 1 672 (by norm_num)
        (by norm_num))) = .ok installed ∧
      validateWorkload [0, 1] kilohertzPolicy (.udpWorkload (megahertzSpec 1 672 (by norm_num)
        (by norm_num))) = .ok () ∧
      ¬ installed.Within kilohertzPolicy := by
  refine ⟨_, megahertzSpec_prepared _ _, megahertzSpec_accepted _ _ rfl ?_ ?_, ?_⟩
  · norm_num [kilohertzPolicy]
  · norm_num [kilohertzPolicy]
  · rintro ⟨hpps, -⟩
    norm_num [kilohertzPolicy, megahertzStream] at hpps

end TrexCli
