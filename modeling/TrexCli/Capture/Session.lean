import TrexCli.Capture.Finish

/-!
# The session analyzer

`StatefulSessionAnalyzer` of `session_analysis.py`. The dictionary `_flows` is the list of its items
in insertion order; hash function, digests and ids are those of the datagram analyzer.
-/

namespace TrexCli.Capture

namespace Tcp

variable (tcp : Tcp)

/-- `TH_FIN | TH_RST` -/
def closes : Bool := tcp.flags &&& 5 ≠ 0

/-- `TH_SYN` -/
def syn : Bool := tcp.flags &&& 2 ≠ 0

/-- `TH_ACK` -/
def ack : Bool := tcp.flags &&& 16 ≠ 0

/-- `initial_syn` -/
def initialSyn : Bool := tcp.syn && !tcp.ack

end Tcp

/-! ### Sessions -/

inductive Side where
  | client | server
  deriving DecidableEq, Repr

/-- The value of the literal. -/
def Side.text : Side → String
  | .client => "client"
  | .server => "server"

/-- `b"c" if direction == "client" else b"s"` -/
def Side.tag : Side → UInt8
  | .client => 99
  | .server => 115

/-- A side with the bytes that it sends in a row. -/
abbrev Exchange := Side × Bytes

/-- `_Flow` -/
structure SessionFlow where
  client : Endpoint
  server : Endpoint
  generation : Nat := 0
  closed : Bool := false
  initialSequence : Option Nat := none
  packetCount : Nat := 0
  sawSyn : Bool := false
  sawSynAck : Bool := false
  nextClientSequence : Option Nat := none
  nextServerSequence : Option Nat := none
  exchanges : List Exchange := []
  issues : List String := []
  clientPayloadBytes : Nat := 0
  serverPayloadBytes : Nat := 0
  storedPayloadBytes : Nat := 0

/-- The keyword arguments of the analyzer, with their defaults. -/
structure SessionSettings where
  maximumReportedSessions : Nat := 256
  maximumWorkloadTemplates : Nat := 256
  maximumTrackedSessions : Nat := 4096
  maximumPayloadBytesPerSession : Nat := 4 * 1024 * 1024
  maximumTotalPayloadBytes : Nat := 64 * 1024 * 1024

namespace SessionFlow

variable (s : SessionSettings) (flow : SessionFlow) (side : Side) (tcp : Tcp)

/-- `issue` -/
def issue (value : String) : SessionFlow :=
  if value ∈ flow.issues then flow else { flow with issues := flow.issues ++ [value] }

/-- `direction`: the side of a flow that sends from `source`. -/
def direction (source : Endpoint) : Side := if source = flow.client then .client else .server

/-- The segment is counted, and its flags are noted. -/
def handshake : SessionFlow :=
  let counted := { flow with
    packetCount := flow.packetCount + 1
    closed := flow.closed || tcp.closes }
  if tcp.initialSyn then
    let checked := if side = .client then counted else counted.issue "conflicting client direction"
    { checked with
      sawSyn := true
      initialSequence := some tcp.seq.toNat
      nextClientSequence := some (tcp.seq.toNat + 1) }
  else if tcp.syn && tcp.ack then
    let checked :=
      if side = .client then counted.issue "SYN-ACK is in the client direction" else counted
    { checked with
      sawSynAck := true
      nextServerSequence := some (tcp.seq.toNat + 1) }
  else counted

/-- The payload is counted, and its sequence number compared with the one expected. -/
def sequence : SessionFlow :=
  let length := tcp.data.length
  let counted := match side with
    | .client => { flow with clientPayloadBytes := flow.clientPayloadBytes + length }
    | .server => { flow with serverPayloadBytes := flow.serverPayloadBytes + length }
  let expected := match side with
    | .client => flow.nextClientSequence
    | .server => flow.nextServerSequence
  match expected with
  | none => counted.issue (side.text ++ " payload appears before the TCP handshake")
  | some expected =>
    if tcp.seq.toNat < expected then
      counted.issue (side.text ++ " retransmission or overlapping payload")
    else if expected < tcp.seq.toNat then
      counted.issue (side.text ++ " payload gap or out-of-order segment")
    else
      match side with
      | .client => { counted with nextClientSequence := some (expected + length) }
      | .server => { counted with nextServerSequence := some (expected + length) }

/-- The exchanges with one more payload: it extends the last exchange when that is of its side. -/
def extend (exchanges : List Exchange) (payload : Bytes) : List Exchange :=
  match exchanges.getLast? with
  | some (last, previous) =>
    if last = side then exchanges.dropLast ++ [(last, previous ++ payload)]
    else exchanges ++ [(side, payload)]
  | none => [(side, payload)]

/-- The payload is stored, if the limits allow; with it the payload bytes stored in all sessions, of
which there were `total`. -/
def store (total : Nat) : SessionFlow × Nat :=
  if s.maximumPayloadBytesPerSession < flow.storedPayloadBytes + tcp.data.length then
    (flow.issue "session payload exceeds the per-session analysis limit", total)
  else if s.maximumTotalPayloadBytes < total + tcp.data.length then
    (flow.issue "capture payload exceeds the total session analysis limit", total)
  else
    ({ flow with
        storedPayloadBytes := flow.storedPayloadBytes + tcp.data.length
        exchanges := extend side flow.exchanges tcp.data.octets },
      total + tcp.data.length)

/-- `observe`, from the flow of the segment on. -/
def receive (total : Nat) : SessionFlow × Nat :=
  let flow := flow.handshake side tcp
  if tcp.data.octets = [] then (flow, total)
  else (flow.sequence side tcp).store s side tcp total

/-- An initial SYN ends the session: it is not a repeated one. -/
def ends : Bool :=
  tcp.initialSyn && (flow.closed || flow.sawSynAck || !flow.exchanges.isEmpty ||
    flow.initialSequence ≠ some tcp.seq.toNat)

end SessionFlow

/-! ### The scan -/

/-- `StatefulSessionAnalyzer` -/
structure StatefulSessionAnalyzer where
  flows : List ((Endpoint × Endpoint) × SessionFlow) := []
  completedFlows : List SessionFlow := []
  storedPayloadBytes : Nat := 0
  omittedTcpPacketCount : Nat := 0

namespace StatefulSessionAnalyzer

variable (s : SessionSettings) (a : StatefulSessionAnalyzer)

/-- `self._flows.get(key)` -/
def flow? (key : Endpoint × Endpoint) : Option SessionFlow :=
  (a.flows.find? fun item => item.1 = key).map Prod.snd

/-- The flow of a key is completed. -/
def complete (key : Endpoint × Endpoint) (flow : SessionFlow) : StatefulSessionAnalyzer :=
  { a with
    flows := a.flows.filter fun item => item.1 ≠ key
    completedFlows := a.completedFlows ++ [flow] }

/-- The flow object that a segment from `source` begins. -/
def begun (source destination : Endpoint) (generation : Nat) (initialSyn : Bool) : SessionFlow :=
  let flow : SessionFlow := { client := source, server := destination, generation }
  if initialSyn then flow else flow.issue "capture does not start with the client SYN"

/-- The last branch of `observe`: a flow that is not there yet. -/
def begin (source destination : Endpoint) (generation : Nat) (tcp : Tcp) :
    StatefulSessionAnalyzer :=
  if s.maximumTrackedSessions ≤ a.flows.length + a.completedFlows.length then
    { a with omittedTcpPacketCount := a.omittedTcpPacketCount + 1 }
  else
    let flow := begun source destination generation tcp.initialSyn
    let (flow', total) := flow.receive s (flow.direction source) tcp a.storedPayloadBytes
    { a with
      flows := a.flows ++ [(flowKey source destination, flow')]
      storedPayloadBytes := total }

/-- `observe`, of a segment with its endpoints -/
def observeSegment (source destination : Endpoint) (tcp : Tcp) : StatefulSessionAnalyzer :=
  let key := flowKey source destination
  match a.flow? key with
  | none => a.begin s source destination 0 tcp
  | some flow =>
    if flow.ends tcp then
      (a.complete key flow).begin s source destination (flow.generation + 1) tcp
    else
      let (flow', total) := flow.receive s (flow.direction source) tcp a.storedPayloadBytes
      { a with
        flows := a.flows.map fun item => if item.1 = key then (item.1, flow') else item
        storedPayloadBytes := total }

/-- `observe` -/
def observe (ethernet : Ethernet) : StatefulSessionAnalyzer :=
  match ethernet.tcp? with
  | none => a
  | some (ip, tcp) => a.observeSegment s (ip.src, tcp.sport) (ip.dst, tcp.dport) tcp

/-- The analyzer after a capture. -/
def scan (packets : List Packet) : StatefulSessionAnalyzer :=
  packets.foldl (fun a packet => a.observe s packet.ethernet) {}

theorem scan_append_singleton (packets : List Packet) (packet : Packet) :
    scan s (packets ++ [packet]) = (scan s packets).observe s packet.ethernet := by
  rw [scan, List.foldl_append]
  rfl

/-- `(*self._completed_flows, *self._flows.values())` -/
def allFlows : List SessionFlow := a.completedFlows ++ a.flows.map Prod.snd

end StatefulSessionAnalyzer

/-! ### Digests -/

namespace SessionFlow

variable (sha256 : Bytes → Digest) (flow : SessionFlow)

/-- The loop over the exchanges in a digest. -/
def updateExchanges : List Exchange → Except AnalysisError Bytes
  | [] => .ok []
  | (side, payload) :: rest => do
    let length ← toBytes 8 payload.length
    let octets ← updateExchanges rest
    pure (side.tag :: (length ++ payload) ++ octets)

/-- `b"generation:"` -/
def generationTag : Bytes := [103, 101, 110, 101, 114, 97, 116, 105, 111, 110, 58]

/-- The generation in a digest, unless it is the first one. -/
def generationOctets : Except AnalysisError Bytes :=
  if flow.generation = 0 then .ok []
  else do
    let octets ← toBytes 8 flow.generation
    pure (generationTag ++ octets)

/-- What `_session` hashes. -/
def sessionOctets : Except AnalysisError Bytes := do
  let generation ← flow.generationOctets
  let octets ← updateExchanges flow.exchanges
  pure (flow.client.octets ++ flow.server.octets ++ generation ++ octets)

/-- What `_template_digest` hashes. -/
def templateOctets : Except AnalysisError Bytes := do
  let octets ← updateExchanges flow.exchanges
  pure (bigEndian 2 flow.server.2.toNat ++ octets)

/-- `_template_digest` -/
def templateDigest : Except AnalysisError Digest := sha256 <$> flow.templateOctets

end SessionFlow

/-! ### Analyses -/

inductive Protocol where
  | http | tcp
  deriving DecidableEq, Repr

/-- The octets of an ASCII text. -/
def ascii (text : String) : Bytes := text.toList.map fun c => .ofNat c.toNat

/-- The beginnings of payloads that make a session HTTP. -/
def httpPrefixes : List Bytes := ["GET ", "POST ", "PUT ", "HEAD ", "HTTP/"].map ascii

/-- `SessionEndpoint` -/
structure SessionEndpoint where
  ipv4 : IpAddress
  port : Nat
  valid : 1 ≤ port ∧ port ≤ 65535

/-- The endpoint of a session. -/
def SessionEndpoint.build (e : Endpoint) : Except AnalysisError SessionEndpoint :=
  validated "SessionEndpoint" (1 ≤ e.2.toNat ∧ e.2.toNat ≤ 65535) fun h => ⟨e.1.address, e.2.toNat, h⟩

/-- `CapturedSessionAnalysis` -/
structure CapturedSessionAnalysis where
  id : Nat
  digest : Digest
  protocol : Protocol
  client : SessionEndpoint
  server : SessionEndpoint
  packetCount : Nat
  clientPayloadBytes : Nat
  serverPayloadBytes : Nat
  exchangeCount : Nat
  reconstructible : Bool
  issues : List String
  valid : 1 ≤ packetCount

/-- `WorkloadTemplateAnalysis` -/
structure WorkloadTemplateAnalysis where
  id : Nat
  digest : Digest
  representativeSessionId : Nat
  representativeSessionDigest : Digest
  protocol : Protocol
  serverPort : Nat
  clientPayloadBytes : Nat
  serverPayloadBytes : Nat
  exchangeCount : Nat
  occurrenceCount : Nat
  valid : 1 ≤ serverPort ∧ serverPort ≤ 65535 ∧ 1 ≤ exchangeCount ∧ 1 ≤ occurrenceCount

/-- `StatefulCaptureAnalysis` -/
structure StatefulCaptureAnalysis where
  tcpSessionCount : Nat
  reconstructibleSessionCount : Nat
  reportedSessionCount : Nat
  analysisTruncated : Bool
  omittedTcpPacketCount : Nat
  workloadComplete : Bool
  workloadTemplateCount : Nat
  workloadTemplates : List WorkloadTemplateAnalysis
  sessions : List CapturedSessionAnalysis

/-- The issues of a session, with those that only its end shows. -/
def SessionFlow.allIssues (flow : SessionFlow) : List String :=
  flow.issues ++ (if flow.sawSyn then [] else ["client SYN is missing"]) ++
    (if flow.sawSynAck then [] else ["server SYN-ACK is missing"]) ++
    (if flow.exchanges.isEmpty then ["application payload is missing"] else [])

/-- `protocol` -/
def SessionFlow.protocol (flow : SessionFlow) : Protocol :=
  if flow.server.2 = 80 ∨ flow.server.2 = 8080 ∨ flow.exchanges.any fun exchange =>
    httpPrefixes.any fun start => start.isPrefixOf exchange.2 then .http else .tcp

/-- `_session` -/
def SessionFlow.session (sha256 : Bytes → Digest) (flow : SessionFlow) :
    Except AnalysisError CapturedSessionAnalysis := do
  let octets ← flow.sessionOctets
  let client ← SessionEndpoint.build flow.client
  let server ← SessionEndpoint.build flow.server
  validated "CapturedSessionAnalysis" (1 ≤ flow.packetCount) fun h =>
    { id := (sha256 octets).short, digest := sha256 octets, protocol := flow.protocol, client, server
      packetCount := flow.packetCount
      clientPayloadBytes := flow.clientPayloadBytes
      serverPayloadBytes := flow.serverPayloadBytes
      exchangeCount := flow.exchanges.length
      reconstructible := flow.allIssues.isEmpty
      issues := flow.allIssues
      valid := h }

/-- A value of the dictionary `workload`, with its key. -/
structure WorkloadEntry where
  digest : Digest
  session : CapturedSessionAnalysis
  count : Nat

/-- The loop body that fills `workload`, for a reconstructible session: the last session of a digest
represents it. -/
def countSession (workload : List WorkloadEntry) (digest : Digest)
    (session : CapturedSessionAnalysis) : List WorkloadEntry :=
  if workload.any fun entry => entry.digest = digest then
    workload.map fun entry =>
      if entry.digest = digest then ⟨digest, session, entry.count + 1⟩ else entry
  else workload ++ [⟨digest, session, 1⟩]

/-- The loop that fills `workload`. -/
def tallySessions (sha256 : Bytes → Digest) (workload : List WorkloadEntry) :
    List (SessionFlow × CapturedSessionAnalysis) → Except AnalysisError (List WorkloadEntry)
  | [] => .ok workload
  | (flow, session) :: rest =>
    if session.reconstructible then do
      let digest ← flow.templateDigest sha256
      tallySessions sha256 (countSession workload digest session) rest
    else tallySessions sha256 workload rest

/-- The workload template of an entry. -/
def WorkloadEntry.template (entry : WorkloadEntry) :
    Except AnalysisError WorkloadTemplateAnalysis :=
  validated "WorkloadTemplateAnalysis" (1 ≤ entry.session.server.port ∧
      entry.session.server.port ≤ 65535 ∧ 1 ≤ entry.session.exchangeCount ∧ 1 ≤ entry.count) fun h =>
    { id := entry.digest.short
      digest := entry.digest
      representativeSessionId := entry.session.id
      representativeSessionDigest := entry.session.digest
      protocol := entry.session.protocol
      serverPort := entry.session.server.port
      clientPayloadBytes := entry.session.clientPayloadBytes
      serverPayloadBytes := entry.session.serverPayloadBytes
      exchangeCount := entry.session.exchangeCount
      occurrenceCount := entry.count
      valid := h }

namespace StatefulSessionAnalyzer

/-- The flows of the analyzer with their sessions, ordered by id. -/
def analyzed (sha256 : Bytes → Digest) (a : StatefulSessionAnalyzer) :
    Except AnalysisError (List (SessionFlow × CapturedSessionAnalysis)) := do
  let pairs ← a.allFlows.mapM fun flow => do
    let session ← flow.session sha256
    pure (flow, session)
  pure (sortById (fun item => item.2.id) pairs)

/-- `finish` -/
def finish (sha256 : Bytes → Digest) (s : SessionSettings) (a : StatefulSessionAnalyzer) :
    Except AnalysisError (Option StatefulCaptureAnalysis) :=
  if a.flows = [] ∧ a.completedFlows = [] then .ok none
  else do
    let analyzed ← a.analyzed sha256
    let sessions := analyzed.map fun item => item.2
    let reported := sessions.take s.maximumReportedSessions
    let workload ← tallySessions sha256 [] analyzed
    let unordered ← workload.mapM fun entry => entry.template
    let workloadTemplates := sortById (fun template => template.id) unordered
    pure (some
      { tcpSessionCount := sessions.length
        reconstructibleSessionCount := sessions.countP fun session => session.reconstructible
        reportedSessionCount := reported.length
        analysisTruncated := 0 < a.omittedTcpPacketCount
        omittedTcpPacketCount := a.omittedTcpPacketCount
        workloadComplete := decide (a.omittedTcpPacketCount = 0) &&
          decide (workloadTemplates.length ≤ s.maximumWorkloadTemplates)
        workloadTemplateCount := workloadTemplates.length
        workloadTemplates := workloadTemplates.take s.maximumWorkloadTemplates
        sessions := reported })

end StatefulSessionAnalyzer

end TrexCli.Capture
