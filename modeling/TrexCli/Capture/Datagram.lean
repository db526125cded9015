import Mathlib.Algebra.BigOperators.Group.List.Basic
import Mathlib.Data.List.Sort
import Mathlib.Algebra.Order.Floor.Ring
import Mathlib.Data.Rat.Floor
import TrexCli.Capture.Frames
import TrexCli.Lib.Framing
import TrexCli.Lib.Checks

/-!
# The datagram flow analyzer

`DatagramFlowAnalyzer` of `datagram_analysis.py`. A flow object is its position in `_flows`, which is
what `_active` has of it. The hash function is a parameter; a digest is a number of 256 bits, and an
id is the number that its first 24 hexadecimal digits are, so that ids are ordered as their texts.
-/

namespace TrexCli.Capture

/-- What a model class or `int.to_bytes` raises. -/
inductive AnalysisError where
  | validation (title : String)
  | overflow
  deriving DecidableEq, Repr

/-- A value of a model class, whose fields have been validated. -/
def validated {α : Type} (title : String) (P : Prop) [Decidable P] (build : P → α) :
    Except AnalysisError α :=
  if h : P then .ok (build h) else .error (.validation title)

@[simp] theorem validated_eq_ok {α : Type} {title : String} {P : Prop} [Decidable P] {build : P → α}
    {a : α} : validated title P build = .ok a ↔ ∃ h, build h = a := by
  unfold validated
  split
  · rename_i h
    simp [h]
  · rename_i h
    simp [h]

/-- `to_bytes(size, "big")` -/
def toBytes (size n : Nat) : Except AnalysisError Bytes :=
  if n < 256 ^ size then .ok (bigEndian size n) else .error .overflow

/-- `round`: to the nearest number, of two nearest ones the even one. -/
def pyRound (q : ℚ) : Int :=
  if q - ⌊q⌋ < 1 / 2 then ⌊q⌋
  else if 1 / 2 < q - ⌊q⌋ then ⌊q⌋ + 1
  else if ⌊q⌋ % 2 = 0 then ⌊q⌋ else ⌊q⌋ + 1

/-- The value of a SHA-256 hash. -/
abbrev Digest := Fin (2 ^ 256)

theorem digest_neZero : NeZero (2 ^ 256) := ⟨by norm_num⟩

/-- The first 24 hexadecimal digits. -/
def Digest.short (digest : Digest) : Nat := digest.val / 2 ^ 160

/-- The octets of an endpoint: those of the address, and two of the port. -/
def Endpoint.octets (e : Endpoint) : Bytes := e.1.toList ++ bigEndian 2 e.2.toNat

/-! ### Flows -/

inductive Direction where
  | initiator | responder
  deriving DecidableEq, Repr

/-- `b"i" if direction == "initiator" else b"r"` -/
def Direction.tag : Direction → UInt8
  | .initiator => 105
  | .responder => 114

/-- `Datagram` -/
structure Datagram where
  direction : Direction
  offsetMicroseconds : Nat
  payload : Payload
  deriving DecidableEq

/-- `_DatagramFlow` -/
structure DatagramFlow where
  initiator : Endpoint
  responder : Endpoint
  firstTimestamp : ℚ
  lastTimestamp : ℚ
  elapsedMicroseconds : Nat := 0
  datagrams : List Datagram := []
  storedPayloadBytes : Nat := 0
  issues : List String := []

/-- The keyword arguments of the analyzer, with their defaults. -/
structure DatagramSettings where
  idleTimeoutSeconds : ℚ := 30
  maximumReportedFlows : Nat := 256
  maximumWorkloadTemplates : Nat := 256
  maximumWorkloadDatagrams : Nat := 512
  maximumTrackedFlows : Nat := 4096
  maximumDatagramsPerFlow : Nat := 256
  maximumPayloadBytesPerFlow : Nat := 4 * 1024 * 1024
  maximumTotalPayloadBytes : Nat := 64 * 1024 * 1024

namespace DatagramFlow

variable (s : DatagramSettings) (flow : DatagramFlow)

/-- `issue` -/
def issue (value : String) : DatagramFlow :=
  if value ∈ flow.issues then flow else { flow with issues := flow.issues ++ [value] }

/-- The time that passes in a flow until a datagram. -/
def advance (timestamp : ℚ) : DatagramFlow :=
  { flow with
    elapsedMicroseconds := flow.elapsedMicroseconds +
      (pyRound (max 0 (timestamp - flow.lastTimestamp) * 1000000)).toNat
    lastTimestamp := max flow.lastTimestamp timestamp }

/-- The direction of a datagram from `source`. -/
def direction (source : Endpoint) : Direction :=
  if source = flow.initiator then .initiator else .responder

/-- The end of `observe`: the flow after a datagram, and the payload bytes stored in all flows, of
which there were `total`. -/
def receive (total : Nat) (source : Endpoint) (payload : Payload) : DatagramFlow × Nat :=
  if s.maximumDatagramsPerFlow ≤ flow.datagrams.length then
    (flow.issue "flow exceeds the datagram analysis limit", total)
  else if s.maximumPayloadBytesPerFlow < flow.storedPayloadBytes + payload.length then
    (flow.issue "flow payload exceeds the per-flow analysis limit", total)
  else if s.maximumTotalPayloadBytes < total + payload.length then
    (flow.issue "capture payload exceeds the total datagram analysis limit", total)
  else
    ({ flow with
        datagrams := flow.datagrams ++
          [⟨flow.direction source, flow.elapsedMicroseconds, payload⟩]
        storedPayloadBytes := flow.storedPayloadBytes + payload.length },
      total + payload.length)

end DatagramFlow

/-! ### The scan -/

/-- `DatagramFlowAnalyzer` -/
structure DatagramFlowAnalyzer where
  active : Endpoint × Endpoint → Option Nat := fun _ => none
  flows : List DatagramFlow := []
  storedPayloadBytes : Nat := 0
  omittedUdpPacketCount : Nat := 0

namespace DatagramFlowAnalyzer

variable (s : DatagramSettings) (a : DatagramFlowAnalyzer)

/-- `self._omitted_udp_packet_count += 1` -/
def omitPacket : DatagramFlowAnalyzer :=
  { a with omittedUdpPacketCount := a.omittedUdpPacketCount + 1 }

/-- The active flow of two endpoints, with its position. -/
def current (source destination : Endpoint) : Option (Nat × DatagramFlow) :=
  (a.active (flowKey source destination)).bind fun i => a.flows[i]?.map fun flow => (i, flow)

/-- The active flow of two endpoints, unless it has been idle for too long. -/
def live (timestamp : ℚ) (source destination : Endpoint) : Option (Nat × DatagramFlow) :=
  (a.current source destination).filter fun p =>
    timestamp - p.2.lastTimestamp ≤ s.idleTimeoutSeconds

/-- The flow object that `source` begins. -/
def begun (timestamp : ℚ) (source destination : Endpoint) : DatagramFlow where
  initiator := source
  responder := destination
  firstTimestamp := timestamp
  lastTimestamp := timestamp

/-- The flow of a datagram at its time, with its position: the live one, or else a new one, if a
further flow is tracked. -/
def track (timestamp : ℚ) (source destination : Endpoint) :
    Option (DatagramFlowAnalyzer × Nat × DatagramFlow) :=
  match a.live s timestamp source destination with
  | some (i, flow) => some (a, i, flow.advance timestamp)
  | none =>
    if s.maximumTrackedFlows ≤ a.flows.length then none
    else
      let flow := begun timestamp source destination
      some ({ a with
        active := fun key =>
          if key = flowKey source destination then some a.flows.length else a.active key
        flows := a.flows ++ [flow] }, a.flows.length, flow)

/-- `observe`, of a datagram with an address and a port on both sides -/
def observeDatagram (timestamp : ℚ) (source destination : Endpoint) (payload : Payload) :
    DatagramFlowAnalyzer :=
  match a.track s timestamp source destination with
  | none => a.omitPacket
  | some (a', i, flow) =>
    let (flow', total) := flow.receive s a.storedPayloadBytes source payload
    { a' with flows := a'.flows.set i flow', storedPayloadBytes := total }

/-- A datagram that a flow can have: both its addresses and ports are those of one host. -/
def eligible? (ethernet : Ethernet) (ip : Ip) : Option Udp :=
  if ethernet.broadcast ∨ ethernet.dst.group ∨ isMulticast ip.dst then none
  else
    match ip.data with
    | .udp udp => if udp.sport = 0 ∨ udp.dport = 0 then none else some udp
    | _ => none

/-- `observe` -/
def observe (timestamp : ℚ) (ethernet : Ethernet) : DatagramFlowAnalyzer :=
  match ethernet.ipUdp? with
  | none => a
  | some ip =>
    match eligible? ethernet ip with
    | none => a.omitPacket
    | some udp => a.observeDatagram s timestamp (ip.src, udp.sport) (ip.dst, udp.dport) udp.data

/-- The analyzer after a capture. -/
def scan (packets : List Packet) : DatagramFlowAnalyzer :=
  packets.foldl (fun a packet => a.observe s packet.timestamp packet.ethernet) {}

theorem scan_append_singleton (packets : List Packet) (packet : Packet) :
    scan s (packets ++ [packet]) = (scan s packets).observe s packet.timestamp packet.ethernet := by
  rw [scan, List.foldl_append]
  rfl

end DatagramFlowAnalyzer

/-! ### Digests -/

namespace DatagramFlow

variable (sha256 : Bytes → Digest) (flow : DatagramFlow)

/-- The loop of `_update_datagrams`. -/
def updateDatagrams : List Datagram → Except AnalysisError Bytes
  | [] => .ok []
  | datagram :: rest => do
    let offset ← toBytes 8 datagram.offsetMicroseconds
    let length ← toBytes 8 datagram.payload.length
    let octets ← updateDatagrams rest
    pure (datagram.direction.tag :: (offset ++ length ++ datagram.payload.octets) ++ octets)

/-- What `_flow_digest` hashes. -/
def flowOctets : Except AnalysisError Bytes := do
  let octets ← updateDatagrams flow.datagrams
  pure (flow.initiator.octets ++ flow.responder.octets ++ octets)

/-- `_flow_digest` -/
def flowDigest : Except AnalysisError Digest := sha256 <$> flow.flowOctets

/-- What `_template_digest` hashes. -/
def templateOctets : Except AnalysisError Bytes := do
  let octets ← updateDatagrams flow.datagrams
  pure (bigEndian 2 flow.responder.2.toNat ++ octets)

/-- `_template_digest` -/
def templateDigest : Except AnalysisError Digest := sha256 <$> flow.templateOctets

/-- `_l1_bytes` -/
def l1Bytes : Nat :=
  (flow.datagrams.map fun item => max 64 (46 + item.payload.length) + 20).sum

/-- The number of datagrams in a direction. -/
def datagramCount (direction : Direction) : Nat :=
  flow.datagrams.countP fun item => item.direction = direction

/-- The payload bytes in a direction. -/
def payloadBytes (direction : Direction) : Nat :=
  ((flow.datagrams.filter fun item => item.direction = direction).map
    fun item => item.payload.length).sum

end DatagramFlow

/-! ### Analyses -/

/-- `DatagramEndpoint` -/
structure DatagramEndpoint where
  ipv4 : IpAddress
  port : Nat
  valid : 1 ≤ port ∧ port ≤ 65535

/-- The endpoint of a flow. -/
def DatagramEndpoint.build (e : Endpoint) : Except AnalysisError DatagramEndpoint :=
  validated "DatagramEndpoint" (1 ≤ e.2.toNat ∧ e.2.toNat ≤ 65535) fun h => ⟨e.1.address, e.2.toNat, h⟩

/-- `CapturedDatagramFlowAnalysis` -/
structure CapturedDatagramFlowAnalysis where
  id : Nat
  digest : Digest
  initiator : DatagramEndpoint
  responder : DatagramEndpoint
  datagramCount : Nat
  initiatorDatagramCount : Nat
  responderDatagramCount : Nat
  initiatorPayloadBytes : Nat
  responderPayloadBytes : Nat
  durationMicroseconds : Nat
  l1BytesPerFlow : Nat
  replayable : Bool
  issues : List String
  valid : 1 ≤ datagramCount ∧ 1 ≤ l1BytesPerFlow

/-- `DatagramWorkloadTemplateAnalysis` -/
structure DatagramWorkloadTemplateAnalysis where
  id : Nat
  digest : Digest
  representativeFlowId : Nat
  representativeFlowDigest : Digest
  responderPort : Nat
  datagramCount : Nat
  initiatorDatagramCount : Nat
  responderDatagramCount : Nat
  initiatorPayloadBytes : Nat
  responderPayloadBytes : Nat
  durationMicroseconds : Nat
  l1BytesPerFlow : Nat
  occurrenceCount : Nat
  valid : 1 ≤ responderPort ∧ responderPort ≤ 65535 ∧ 1 ≤ datagramCount ∧ 1 ≤ l1BytesPerFlow ∧
    1 ≤ occurrenceCount

/-- `DatagramCaptureAnalysis` -/
structure DatagramCaptureAnalysis where
  udpFlowCount : Nat
  replayableFlowCount : Nat
  reportedFlowCount : Nat
  idleTimeoutSeconds : ℚ
  analysisTruncated : Bool
  omittedUdpPacketCount : Nat
  workloadComplete : Bool
  workloadTemplateCount : Nat
  workloadDatagramCount : Nat
  workloadTemplates : List DatagramWorkloadTemplateAnalysis
  flows : List CapturedDatagramFlowAnalysis
  valid : 0 < idleTimeoutSeconds

/-- `_analysis` -/
def DatagramFlow.analysis (sha256 : Bytes → Digest) (flow : DatagramFlow) :
    Except AnalysisError CapturedDatagramFlowAnalysis := do
  let digest ← flow.flowDigest sha256
  let initiator ← DatagramEndpoint.build flow.initiator
  let responder ← DatagramEndpoint.build flow.responder
  validated "CapturedDatagramFlowAnalysis" (1 ≤ flow.datagrams.length ∧ 1 ≤ flow.l1Bytes) fun h =>
    { id := digest.short, digest, initiator, responder
      datagramCount := flow.datagrams.length
      initiatorDatagramCount := flow.datagramCount .initiator
      responderDatagramCount := flow.datagramCount .responder
      initiatorPayloadBytes := flow.payloadBytes .initiator
      responderPayloadBytes := flow.payloadBytes .responder
      durationMicroseconds := flow.elapsedMicroseconds
      l1BytesPerFlow := flow.l1Bytes
      replayable := !flow.datagrams.isEmpty && flow.issues.isEmpty
      issues := flow.issues
      valid := h }

/-- A value of the dictionary `templates`, with its key. -/
structure TemplateEntry where
  digest : Digest
  flow : DatagramFlow
  analysis : CapturedDatagramFlowAnalysis
  count : Nat

/-- The loop body that fills `templates`, for a replayable flow. -/
def countTemplate (templates : List TemplateEntry) (digest : Digest) (flow : DatagramFlow)
    (analysis : CapturedDatagramFlowAnalysis) : List TemplateEntry :=
  if templates.any fun entry => entry.digest = digest then
    templates.map fun entry =>
      if entry.digest = digest then { entry with count := entry.count + 1 } else entry
  else templates ++ [⟨digest, flow, analysis, 1⟩]

/-- The loop that fills `templates`. -/
def tally (sha256 : Bytes → Digest) (templates : List TemplateEntry) :
    List (DatagramFlow × CapturedDatagramFlowAnalysis) → Except AnalysisError (List TemplateEntry)
  | [] => .ok templates
  | (flow, analysis) :: rest =>
    if analysis.replayable then do
      let digest ← flow.templateDigest sha256
      tally sha256 (countTemplate templates digest flow analysis) rest
    else tally sha256 templates rest

/-- The workload template of an entry. -/
def TemplateEntry.template (entry : TemplateEntry) :
    Except AnalysisError DatagramWorkloadTemplateAnalysis :=
  validated "DatagramWorkloadTemplateAnalysis"
    (1 ≤ entry.flow.responder.2.toNat ∧ entry.flow.responder.2.toNat ≤ 65535 ∧
      1 ≤ entry.flow.datagrams.length ∧ 1 ≤ entry.flow.l1Bytes ∧ 1 ≤ entry.count) fun h =>
    { id := entry.digest.short
      digest := entry.digest
      representativeFlowId := entry.analysis.id
      representativeFlowDigest := entry.analysis.digest
      responderPort := entry.flow.responder.2.toNat
      datagramCount := entry.flow.datagrams.length
      initiatorDatagramCount := entry.flow.datagramCount .initiator
      responderDatagramCount := entry.flow.datagramCount .responder
      initiatorPayloadBytes := entry.flow.payloadBytes .initiator
      responderPayloadBytes := entry.flow.payloadBytes .responder
      durationMicroseconds := entry.flow.elapsedMicroseconds
      l1BytesPerFlow := entry.flow.l1Bytes
      occurrenceCount := entry.count
      valid := h }

/-- `sort(key=lambda item: item.id)` -/
def sortById {α : Type} (id : α → Nat) (items : List α) : List α :=
  items.insertionSort fun a b => id a ≤ id b

/-- The flows of the representatives, and the other flows. -/
def reportOrder (representatives : List Nat) (analyses : List CapturedDatagramFlowAnalysis) :
    List CapturedDatagramFlowAnalysis :=
  (analyses.filter fun analysis => analysis.id ∈ representatives) ++
    analyses.filter fun analysis => analysis.id ∉ representatives

namespace DatagramFlowAnalyzer

/-- The flows of the analyzer with their analyses, ordered by id. -/
def analyzed (sha256 : Bytes → Digest) (a : DatagramFlowAnalyzer) :
    Except AnalysisError (List (DatagramFlow × CapturedDatagramFlowAnalysis)) := do
  let pairs ← a.flows.mapM fun flow => do
    let analysis ← flow.analysis sha256
    pure (flow, analysis)
  pure (sortById (fun item => item.2.id) pairs)

/-- `finish` -/
def finish (sha256 : Bytes → Digest) (s : DatagramSettings) (a : DatagramFlowAnalyzer) :
    Except AnalysisError (Option DatagramCaptureAnalysis) :=
  if a.flows = [] ∧ a.omittedUdpPacketCount = 0 then .ok none
  else do
    let analyzed ← a.analyzed sha256
    let templates ← tally sha256 [] analyzed
    let unordered ← templates.mapM fun entry => entry.template
    let workloadTemplates := sortById (fun item => item.id) unordered
    let incomplete : Bool := 0 < a.omittedUdpPacketCount ∨
      analyzed.any fun item => !item.2.replayable
    let workloadDatagramCount := (workloadTemplates.map fun item => item.datagramCount).sum
    let published := workloadTemplates.take s.maximumWorkloadTemplates
    let representatives := published.map fun item => item.representativeFlowId
    let reported := reportOrder representatives (analyzed.map fun item => item.2)
    let analysis ← validated "DatagramCaptureAnalysis" (0 < s.idleTimeoutSeconds) fun h =>
      { udpFlowCount := analyzed.length
        replayableFlowCount := analyzed.countP fun item => item.2.replayable
        reportedFlowCount := min analyzed.length s.maximumReportedFlows
        idleTimeoutSeconds := s.idleTimeoutSeconds
        analysisTruncated := incomplete
        omittedUdpPacketCount := a.omittedUdpPacketCount
        workloadComplete := !incomplete &&
          decide (workloadTemplates.length ≤ s.maximumWorkloadTemplates) &&
          decide (workloadDatagramCount ≤ s.maximumWorkloadDatagrams)
        workloadTemplateCount := workloadTemplates.length
        workloadDatagramCount := workloadDatagramCount
        workloadTemplates := published
        flows := reported.take s.maximumReportedFlows
        valid := h : DatagramCaptureAnalysis }
    pure (some analysis)

end DatagramFlowAnalyzer

end TrexCli.Capture
