import Mathlib.Data.List.Chain
import TrexCli.Capture.Reassembly

/-!
# Complete sessions

A capture without loss of one TCP session: its opening segments, and those after them in the order in
which they were sent. A sequence number is what a side sent before, modulo `2 ^ 32`; the analyzer counts
on. So it has the session exactly when no payload begins behind the end of the sequence numbers
(`session_complete_iff`).
-/

namespace TrexCli.Capture

open Segment

/-! ### Merged exchanges -/

/-- The bytes of an exchange, with their side. -/
def tagged (exchange : Exchange) : List (Side × UInt8) := exchange.2.map fun octet => (exchange.1, octet)

/-- The exchanges are the bytes of a stream, as few as there can be: one side after the other. -/
structure Merged (stream : List (Side × UInt8)) (exchanges : List Exchange) : Prop where
  stream : exchanges.flatMap tagged = stream
  alternating : exchanges.IsChain fun previous next => previous.1 ≠ next.1
  nonempty : ∀ exchange ∈ exchanges, exchange.2 ≠ []

theorem Merged.extend {stream : List (Side × UInt8)} {exchanges : List Exchange} (h : Merged stream exchanges)
    {side : Side} {payload : Bytes} (hpayload : payload ≠ []) :
    Merged (stream ++ tagged (side, payload)) (SessionFlow.extend side exchanges payload) := by
  obtain ⟨hstream, halternating, hnonempty⟩ := h
  cases exchanges using List.reverseRecOn with
  | nil =>
    refine ⟨?_, List.isChain_singleton _, fun exchange hmem => ?_⟩
    · rw [← hstream]
      exact List.append_nil _
    · obtain rfl := List.mem_singleton.mp hmem
      exact hpayload
  | append_singleton exchanges last _ =>
    rw [extend_append_singleton]
    by_cases hside : last.1 = side
    · rw [if_pos hside]
      refine ⟨?_, ?_, fun exchange hmem => ?_⟩
      · rw [← hstream, ← hside]
        simp [tagged]
      · rw [List.isChain_append] at halternating ⊢
        exact ⟨halternating.1, List.isChain_singleton _, fun x hx y hy => by
          obtain rfl : (last.1, last.2 ++ payload) = y := by simpa using hy
          exact halternating.2.2 x hx last (by simp)⟩
      · rcases List.mem_append.mp hmem with hmem | hmem
        · exact hnonempty exchange (List.mem_append_left _ hmem)
        · obtain rfl := List.mem_singleton.mp hmem
          exact List.append_ne_nil_of_right_ne_nil _ hpayload
    · rw [if_neg hside]
      refine ⟨?_, ?_, fun exchange hmem => ?_⟩
      · rw [List.flatMap_append, hstream]
        simp
      · rw [List.isChain_append]
        refine ⟨halternating, List.isChain_singleton _, fun x hx y hy => ?_⟩
        obtain rfl : last = x := by simpa using hx
        obtain rfl : (side, payload) = y := by simpa using hy
        exact hside
      · rcases List.mem_append.mp hmem with hmem | hmem
        · exact hnonempty exchange hmem
        · obtain rfl := List.mem_singleton.mp hmem
          exact hpayload

/-- The bytes that segments carry, with their sides. -/
def streamOf (segments : List Segment) : List (Side × UInt8) :=
  segments.flatMap fun segment => tagged (segment.1, segment.2.data.octets)

theorem payloads_append_singleton (segments : List Segment) (segment : Segment) :
    payloads (segments ++ [segment]) =
      if segment.2.data.octets = [] then payloads segments else payloads segments ++ [segment] := by
  by_cases hempty : segment.2.data.octets = []
  · simp [payloads, hempty]
  · simp [payloads, hempty]

/-- The exchanges of segments are their bytes, merged. -/
theorem merged_assemble (segments : List Segment) :
    Merged (streamOf segments) (assemble (payloads segments)) := by
  induction segments using List.reverseRecOn with
  | nil => exact ⟨rfl, .nil, by simp [assemble, payloads]⟩
  | append_singleton segments segment ih =>
    have hstream : streamOf (segments ++ [segment]) =
        streamOf segments ++ tagged (segment.1, segment.2.data.octets) := by
      simp [streamOf]
    rw [hstream, payloads_append_singleton]
    by_cases hempty : segment.2.data.octets = []
    · rw [if_pos hempty, hempty]
      simpa [tagged] using ih
    · rw [if_neg hempty, assemble_append_singleton]
      exact ih.extend hempty

/-! ### Sessions without loss -/

/-- The segment that opens a side. -/
def openingOf (syn synAck : Tcp) : Side → Tcp
  | .client => syn
  | .server => synAck

/-- The sequence number of a side after some segments, counted on. -/
def position (syn synAck : Tcp) (side : Side) (before : List Segment) : Nat :=
  (openingOf syn synAck side).seq.toNat + 1 + octetsOf (sent side before)

/-- A TCP session: a SYN and a SYN-ACK without data, and the segments after them, of which some have
data and each that has it begins where its side stands. -/
structure TcpSession where
  client : Endpoint
  server : Endpoint
  distinct : client ≠ server
  syn : Tcp
  synAck : Tcp
  segments : List Segment
  opening : syn.initialSyn = true ∧ syn.data.octets = []
  accepting : (synAck.syn && synAck.ack) = true ∧ synAck.data.octets = []
  plain : ∀ segment ∈ segments, segment.2.syn = false
  inOrder : ∀ before side tcp after, segments = before ++ (side, tcp) :: after →
    tcp.data.octets ≠ [] → tcp.seq.toNat = position syn synAck side before % 2 ^ 32
  payload : payloads segments ≠ []

/-- The segment of a packet, with its endpoints. -/
def Packet.segment? (packet : Packet) : Option (Endpoint × Endpoint × Tcp) :=
  packet.ethernet.tcp?.map fun (ip, tcp) => ((ip.src, tcp.sport), (ip.dst, tcp.dport), tcp)

namespace TcpSession

variable (session : TcpSession)

/-- A segment from a side, with its endpoints. -/
def send : Segment → Endpoint × Endpoint × Tcp
  | (.client, tcp) => (session.client, session.server, tcp)
  | (.server, tcp) => (session.server, session.client, tcp)

/-- The segments of a capture are those of the session, in their order. -/
def Captured (packets : List Packet) : Prop :=
  packets.filterMap Packet.segment? =
    session.send (.client, session.syn) :: session.send (.server, session.synAck) ::
      session.segments.map session.send

/-- No payload of these segments begins behind the end of the sequence numbers. -/
def UnwrappedIn (segments : List Segment) : Prop :=
  ∀ before side tcp after, segments = before ++ (side, tcp) :: after → tcp.data.octets ≠ [] →
    position session.syn session.synAck side before < 2 ^ 32

/-- No payload of the session begins behind the end of the sequence numbers. -/
def Unwrapped : Prop := session.UnwrappedIn session.segments

/-- The bytes of the session are within the limits. -/
def WithinLimits (s : SessionSettings) : Prop :=
  octetsOf (session.segments.map Prod.snd) ≤ s.maximumPayloadBytesPerSession ∧
    octetsOf (session.segments.map Prod.snd) ≤ s.maximumTotalPayloadBytes

end TcpSession

/-- `extract_session_template`, of a file that `dpkt` has parsed -/
def extractSessionTemplate (sha256 : Bytes → Digest) (packets : List Packet) (sessionId : Nat) :
    Except TemplateError SessionTemplate :=
  (StatefulSessionAnalyzer.scan { maximumReportedSessions := 0 } packets).template sha256 sessionId

/-- The analysis reports the session alone, reconstructible and without an issue, and its template has
its bytes, merged. -/
def Complete (sha256 : Bytes → Digest) (session : TcpSession) (packets : List Packet) : Prop :=
  ∃ analysis reported template,
    (StatefulSessionAnalyzer.scan {} packets).finish sha256 {} = .ok (some analysis) ∧
      analysis.sessions = [reported] ∧ reported.reconstructible = true ∧ reported.issues = [] ∧
      extractSessionTemplate sha256 packets reported.id = .ok template ∧
      Merged (streamOf session.segments) template.exchanges

/-! ### Segments of one session -/

theorem endpoint_total (a b : Endpoint) : Endpoint.le a b = true ∨ Endpoint.le b a = true := by
  unfold Endpoint.le
  by_cases hhost : a.1 = b.1
  · rw [if_pos hhost, if_pos hhost.symm, decide_eq_true_eq, decide_eq_true_eq]
    exact UInt16.le_total _ _
  · rw [if_neg hhost, if_neg (Ne.symm hhost), decide_eq_true_eq, decide_eq_true_eq]
    by_contra hneither
    rw [not_or] at hneither
    exact hhost (Subtype.ext (List.le_antisymm hneither.2 hneither.1))

theorem endpoint_antisymm {a b : Endpoint} (hab : Endpoint.le a b = true)
    (hba : Endpoint.le b a = true) : a = b := by
  unfold Endpoint.le at hab hba
  by_cases hhost : a.1 = b.1
  · rw [if_pos hhost, decide_eq_true_eq] at hab
    rw [if_pos hhost.symm, decide_eq_true_eq] at hba
    exact Prod.ext hhost (UInt16.le_antisymm hab hba)
  · rw [if_neg hhost, decide_eq_true_eq] at hab
    rw [if_neg (Ne.symm hhost), decide_eq_true_eq] at hba
    exact absurd hba (List.lt_asymm hab)

/-- A key does not depend on the direction. -/
theorem flowKey_comm (a b : Endpoint) : flowKey a b = flowKey b a := by
  unfold flowKey
  by_cases hab : Endpoint.le a b = true
  · by_cases hba : Endpoint.le b a = true
    · rw [if_pos hab, if_pos hba, endpoint_antisymm hab hba]
    · rw [if_pos hab, if_neg hba]
  · rw [if_neg hab, if_pos ((endpoint_total a b).resolve_left hab)]

namespace StatefulSessionAnalyzer

variable {s : SessionSettings}

theorem observe_eq (a : StatefulSessionAnalyzer) (packet : Packet) :
    a.observe s packet.ethernet = packet.segment?.elim a fun segment =>
      a.observeSegment s segment.1 segment.2.1 segment.2.2 := by
  unfold observe Packet.segment?
  cases packet.ethernet.tcp? with
  | none => rfl
  | some header => rfl

/-- Only the segments of a capture count. -/
theorem scan_eq (packets : List Packet) :
    scan s packets = (packets.filterMap Packet.segment?).foldl
      (fun a segment => a.observeSegment s segment.1 segment.2.1 segment.2.2) {} := by
  induction packets using List.reverseRecOn with
  | nil => rfl
  | append_singleton packets packet ih =>
    rw [scan_append_singleton, observe_eq, ih, List.filterMap_append, List.foldl_append]
    cases hsegment : packet.segment? with
    | none => simp [hsegment]
    | some segment => simp [hsegment]

/-- The analyzer of one session. -/
def lone (key : Endpoint × Endpoint) (flow : SessionFlow) (total : Nat) : StatefulSessionAnalyzer :=
  { flows := [(key, flow)], storedPayloadBytes := total }

/-- A segment of the session, unless it begins another one. -/
theorem observeSegment_lone {flow : SessionFlow} {total : Nat} {source destination : Endpoint} {tcp : Tcp}
    (hends : flow.ends tcp = false) :
    (lone (flowKey source destination) flow total).observeSegment s source destination tcp =
      lone (flowKey source destination) (flow.receive s (flow.direction source) tcp total).1
        (flow.receive s (flow.direction source) tcp total).2 := by
  simp [observeSegment, lone, flow?, hends]

end StatefulSessionAnalyzer

/-! ### A session goes on -/

namespace SessionFlow

variable {s : SessionSettings} {flow : SessionFlow} {side : Side} {tcp : Tcp} {total : Nat}

/-- The counter of a side. -/
def counter (flow : SessionFlow) : Side → Option Nat
  | .client => flow.nextClientSequence
  | .server => flow.nextServerSequence

theorem handshake_plain (h : tcp.syn = false) : flow.handshake side tcp = { flow with
    packetCount := flow.packetCount + 1
    closed := flow.closed || tcp.closes } := by
  simp [handshake, Tcp.initialSyn, h]

theorem issue_fields (value : String) :
    (flow.issue value).sawSyn = flow.sawSyn ∧ (flow.issue value).sawSynAck = flow.sawSynAck := by
  unfold issue
  split
  · exact ⟨rfl, rfl⟩
  · exact ⟨rfl, rfl⟩

theorem sequence_fields (flow : SessionFlow) (side : Side) (tcp : Tcp) :
    (flow.sequence side tcp).sawSyn = flow.sawSyn ∧
      (flow.sequence side tcp).sawSynAck = flow.sawSynAck := by
  cases side with
  | client =>
    simp only [sequence]
    split
    · exact issue_fields _
    · split
      · exact issue_fields _
      · split
        · exact issue_fields _
        · exact ⟨rfl, rfl⟩
  | server =>
    simp only [sequence]
    split
    · exact issue_fields _
    · split
      · exact issue_fields _
      · split
        · exact issue_fields _
        · exact ⟨rfl, rfl⟩

/-- A payload that begins where its side stands. -/
theorem sequence_of_eq (h : flow.counter side = some tcp.seq.toNat) :
    (flow.sequence side tcp).issues = flow.issues ∧
      (flow.sequence side tcp).counter side = some (tcp.seq.toNat + tcp.data.length) ∧
      ∀ other, other ≠ side → (flow.sequence side tcp).counter other = flow.counter other := by
  cases side with
  | client =>
    have hnext : flow.nextClientSequence = some tcp.seq.toNat := h
    refine ⟨?_, ?_, fun other hother => ?_⟩
    · simp [sequence, hnext]
    · simp [sequence, hnext, counter]
    · cases other with
      | client => exact absurd rfl hother
      | server => simp [sequence, hnext, counter]
  | server =>
    have hnext : flow.nextServerSequence = some tcp.seq.toNat := h
    refine ⟨?_, ?_, fun other hother => ?_⟩
    · simp [sequence, hnext]
    · simp [sequence, hnext, counter]
    · cases other with
      | client => simp [sequence, hnext, counter]
      | server => exact absurd rfl hother

/-- A payload that begins before is an issue. -/
theorem sequence_of_lt {n : Nat} (hcounter : flow.counter side = some n) (h : tcp.seq.toNat < n) :
    (flow.sequence side tcp).issues ≠ [] := by
  intro hissues
  cases side with
  | client =>
    have hnext := (sequence_client hissues).1
    rw [show flow.nextClientSequence = some n from hcounter] at hnext
    exact h.ne (Option.some.inj hnext).symm
  | server =>
    have hnext := (sequence_server hissues).1
    rw [show flow.nextServerSequence = some n from hcounter] at hnext
    exact h.ne (Option.some.inj hnext).symm

theorem store_of_fits (h : flow.Fits s total tcp) :
    flow.store s side tcp total = ({ flow with
      storedPayloadBytes := flow.storedPayloadBytes + tcp.data.length
      exchanges := extend side flow.exchanges tcp.data.octets }, total + tcp.data.length) := by
  rw [store, if_neg (not_lt.mpr h.1), if_neg (not_lt.mpr h.2)]

end SessionFlow

section Going

variable {session : TcpSession} {s : SessionSettings} {flow : SessionFlow} {taken : List Segment}
  {side : Side} {tcp : Tcp} {total : Nat}

theorem position_append (syn synAck : Tcp) (other : Side) :
    position syn synAck other (taken ++ [(side, tcp)]) =
      position syn synAck other taken + if side = other then tcp.data.length else 0 := by
  by_cases hside : side = other
  · subst hside
    simp [position, octetsOf, Nat.add_assoc]
  · simp [position, sent_singleton_of_ne hside, hside]

theorem octetsOf_append : octetsOf ((taken ++ [(side, tcp)]).map Prod.snd) =
    octetsOf (taken.map Prod.snd) + tcp.data.length := by
  simp [octetsOf]

theorem TcpSession.unwrappedIn_append : session.UnwrappedIn (taken ++ [(side, tcp)]) ↔
    session.UnwrappedIn taken ∧
      (tcp.data.octets ≠ [] → position session.syn session.synAck side taken < 2 ^ 32) := by
  constructor
  · intro h
    refine ⟨fun before side' tcp' after heq => ?_, h taken side tcp [] rfl⟩
    exact h before side' tcp' (after ++ [(side, tcp)]) (by rw [heq]; simp)
  · rintro ⟨htaken, hlast⟩ before side' tcp' after heq hpayload
    obtain rfl | ⟨front, final, rfl⟩ := after.eq_nil_or_concat
    · obtain ⟨rfl, hsame⟩ := List.append_inj' heq rfl
      obtain ⟨rfl, rfl⟩ := Prod.mk.inj (List.head_eq_of_cons_eq hsame)
      exact hlast hpayload
    · rw [List.concat_eq_append, ← List.cons_append, ← List.append_assoc] at heq
      exact htaken before side' tcp' front (List.append_inj' heq rfl).1 hpayload

/-- The flow of a session after some of its segments. It has an issue when a payload began behind the
end of the sequence numbers. -/
structure Going (session : TcpSession) (taken : List Segment) (flow : SessionFlow) (total : Nat) :
    Prop where
  client : flow.client = session.client
  server : flow.server = session.server
  generation : flow.generation = 0
  counted : 1 ≤ flow.packetCount
  sawSyn : flow.sawSyn = true
  sawSynAck : flow.sawSynAck = true
  exchanges : flow.exchanges = assemble (payloads taken)
  stored : flow.storedPayloadBytes = octetsOf (taken.map Prod.snd)
  total : total = octetsOf (taken.map Prod.snd)
  issueless : session.UnwrappedIn taken → flow.issues = [] ∧
    ∀ side, flow.counter side = some (position session.syn session.synAck side taken)
  issued : ¬session.UnwrappedIn taken → flow.issues ≠ []

theorem Going.direction (h : Going session taken flow total) (segment : Segment) :
    flow.direction (session.send segment).1 = segment.1 := by
  obtain ⟨side, tcp⟩ := segment
  rw [SessionFlow.direction, h.client]
  cases side with
  | client => exact if_pos rfl
  | server => exact if_neg (Ne.symm session.distinct)

/-- A segment without a payload. -/
theorem Going.pass (h : Going session taken flow total) (hplain : tcp.syn = false)
    (hempty : tcp.data.octets = []) :
    Going session (taken ++ [(side, tcp)]) (flow.receive s side tcp total).1
      (flow.receive s side tcp total).2 := by
  have hlength : tcp.data.length = 0 := List.length_eq_zero_iff.mpr hempty
  have hunwrapped : session.UnwrappedIn (taken ++ [(side, tcp)]) ↔ session.UnwrappedIn taken := by
    rw [TcpSession.unwrappedIn_append]
    exact and_iff_left fun hpayload => absurd hempty hpayload
  have hoctets : octetsOf ((taken ++ [(side, tcp)]).map Prod.snd) = octetsOf (taken.map Prod.snd) := by
    rw [octetsOf_append, hlength, Nat.add_zero]
  rw [SessionFlow.receive, if_pos hempty, SessionFlow.handshake_plain hplain]
  exact
    { client := h.client
      server := h.server
      generation := h.generation
      counted := Nat.le_add_left 1 _
      sawSyn := h.sawSyn
      sawSynAck := h.sawSynAck
      exchanges := by
        rw [payloads_append_singleton, if_pos hempty]
        exact h.exchanges
      stored := h.stored.trans hoctets.symm
      total := h.total.trans hoctets.symm
      issueless := fun hall => by
        obtain ⟨hissues, hcounter⟩ := h.issueless (hunwrapped.mp hall)
        refine ⟨hissues, fun other => ?_⟩
        have hposition : position session.syn session.synAck other (taken ++ [(side, tcp)]) =
            position session.syn session.synAck other taken := by
          rw [position_append, hlength, ite_self]
          rfl
        rw [hposition, ← hcounter other]
        cases other with
        | client => rfl
        | server => rfl
      issued := fun hsome => h.issued (mt hunwrapped.mpr hsome) }

/-- A segment with a payload. -/
theorem Going.take (h : Going session taken flow total) (hplain : tcp.syn = false)
    (hpayload : tcp.data.octets ≠ [])
    (hseq : tcp.seq.toNat = position session.syn session.synAck side taken % 2 ^ 32)
    (hfits : flow.Fits s total tcp) :
    Going session (taken ++ [(side, tcp)]) (flow.receive s side tcp total).1
      (flow.receive s side tcp total).2 := by
  have hreceived : SessionFlow.Received s flow side tcp total (flow.receive s side tcp total).1 :=
    SessionFlow.receive_received
  obtain ⟨counted, hcounted⟩ : ∃ counted, flow.handshake side tcp = counted := ⟨_, rfl⟩
  have hplainly := hcounted.symm.trans (SessionFlow.handshake_plain hplain)
  have hsame := SessionFlow.sequence_same counted side tcp
  have hstored : (counted.sequence side tcp).storedPayloadBytes = flow.storedPayloadBytes := by
    rw [hsame.stored, hplainly]
  have hfits' : (counted.sequence side tcp).Fits s total tcp := by
    rw [SessionFlow.Fits, hstored]
    exact hfits
  have hreceive : flow.receive s side tcp total = ({ counted.sequence side tcp with
      storedPayloadBytes := (counted.sequence side tcp).storedPayloadBytes + tcp.data.length
      exchanges := SessionFlow.extend side (counted.sequence side tcp).exchanges tcp.data.octets },
      total + tcp.data.length) := by
    rw [SessionFlow.receive, if_neg hpayload, hcounted, SessionFlow.store_of_fits hfits']
  obtain ⟨hsyn, hsynAck⟩ := SessionFlow.sequence_fields counted side tcp
  refine
    { client := hreceived.client.trans h.client
      server := hreceived.server.trans h.server
      generation := hreceived.generation.trans h.generation
      counted := by
        rw [hreceived.packetCount]
        exact Nat.le_add_left 1 _
      sawSyn := ?_
      sawSynAck := ?_
      exchanges := ?_
      stored := ?_
      total := ?_
      issueless := fun hall => ?_
      issued := fun hsome => ?_ }
  · rw [hreceive]
    show (counted.sequence side tcp).sawSyn = true
    rw [hsyn, hplainly]
    exact h.sawSyn
  · rw [hreceive]
    show (counted.sequence side tcp).sawSynAck = true
    rw [hsynAck, hplainly]
    exact h.sawSynAck
  · rw [hreceived.exchanges, if_pos ⟨hpayload, hfits⟩, payloads_append_singleton, if_neg hpayload,
      assemble_append_singleton, h.exchanges]
  · rw [hreceive, octetsOf_append, ← h.stored]
    exact congrArg (· + tcp.data.length) hstored
  · rw [hreceive, octetsOf_append, ← h.total]
  · obtain ⟨htaken, hlast⟩ := TcpSession.unwrappedIn_append.mp hall
    obtain ⟨hissues, hcounter⟩ := h.issueless htaken
    have hposition : tcp.seq.toNat = position session.syn session.synAck side taken :=
      hseq.trans (Nat.mod_eq_of_lt (hlast hpayload))
    have hcounters : ∀ other, counted.counter other = flow.counter other := by
      intro other
      rw [hplainly]
      cases other with
      | client => rfl
      | server => rfl
    obtain ⟨hsequence, hnext, hothers⟩ := SessionFlow.sequence_of_eq
      ((hcounters side).trans ((hcounter side).trans (congrArg some hposition.symm)))
    rw [hreceive]
    refine ⟨?_, fun other => ?_⟩
    · show (counted.sequence side tcp).issues = []
      rw [hsequence, hplainly]
      exact hissues
    · have hcounter' : (counted.sequence side tcp).counter other =
          some (position session.syn session.synAck other (taken ++ [(side, tcp)])) := by
        rw [position_append]
        by_cases hside : side = other
        · subst hside
          rw [hnext, if_pos rfl, hposition]
        · rw [hothers other (Ne.symm hside), hcounters, hcounter, if_neg hside]
          rfl
      rw [← hcounter']
      cases other with
      | client => rfl
      | server => rfl
  · intro hissues
    have hafter : ((counted.sequence side tcp).store s side tcp total).1.issues = [] := by
      rw [SessionFlow.store_of_fits hfits', ← hreceive]
      exact hissues
    obtain ⟨hsequence, hbefore⟩ := SessionFlow.issues_of_sequence_store hafter
    have hnone : flow.issues = [] := by
      rw [hplainly] at hbefore
      exact hbefore
    have htaken : session.UnwrappedIn taken := by
      by_contra hwrapped
      exact h.issued hwrapped hnone
    have hbehind : 2 ^ 32 ≤ position session.syn session.synAck side taken := by
      by_contra hlt
      exact hsome (TcpSession.unwrappedIn_append.mpr ⟨htaken, fun _ => not_le.mp hlt⟩)
    have hcounter : counted.counter side = some (position session.syn session.synAck side taken) := by
      rw [hplainly, ← (h.issueless htaken).2 side]
      cases side with
      | client => rfl
      | server => rfl
    exact SessionFlow.sequence_of_lt hcounter (tcp.seq.toNat_lt.trans_le hbehind) hsequence

/-! ### A whole session -/

/-- The key of a session. -/
def TcpSession.key (session : TcpSession) : Endpoint × Endpoint := flowKey session.client session.server

theorem TcpSession.key_send (session : TcpSession) (segment : Segment) :
    flowKey (session.send segment).1 (session.send segment).2.1 = session.key := by
  obtain ⟨side, tcp⟩ := segment
  cases side with
  | client => rfl
  | server => exact flowKey_comm _ _

open StatefulSessionAnalyzer

/-- The analyzer after the handshake. -/
theorem going_opened (session : TcpSession) (htracked : 1 ≤ s.maximumTrackedSessions) :
    ∃ flow, (((({} : StatefulSessionAnalyzer).observeSegment s session.client session.server session.syn
        ).observeSegment s session.server session.client session.synAck) = lone session.key flow 0) ∧
      Going session [] flow 0 := by
  obtain ⟨hinitial, hsilent⟩ := session.opening
  obtain ⟨haccepts, hsilent'⟩ := session.accepting
  have hnotInitial : session.synAck.initialSyn = false := by
    rw [Bool.and_eq_true] at haccepts
    simp [Tcp.initialSyn, haccepts.2]
  let opened : SessionFlow :=
    { client := session.client
      server := session.server
      closed := session.syn.closes
      initialSequence := some session.syn.seq.toNat
      packetCount := 1
      sawSyn := true
      nextClientSequence := some (session.syn.seq.toNat + 1) }
  have hfirst : ({} : StatefulSessionAnalyzer).observeSegment s session.client session.server session.syn =
      lone session.key opened 0 := by
    have hroom : ¬s.maximumTrackedSessions ≤ 0 := by omega
    simp [observeSegment, flow?, StatefulSessionAnalyzer.begin, hroom, begun, hinitial,
      SessionFlow.direction, SessionFlow.receive, SessionFlow.handshake, hsilent, lone, opened,
      TcpSession.key]
  have hends : opened.ends session.synAck = false := by
    rw [SessionFlow.ends, hnotInitial, Bool.false_and]
  have hdirection : opened.direction session.server = .server := if_neg (Ne.symm session.distinct)
  refine ⟨{ opened with
    packetCount := 2
    closed := opened.closed || session.synAck.closes
    sawSynAck := true
    nextServerSequence := some (session.synAck.seq.toNat + 1) }, ?_, ?_⟩
  · rw [hfirst, TcpSession.key, flowKey_comm session.client, observeSegment_lone hends, hdirection]
    simp [SessionFlow.receive, SessionFlow.handshake, hnotInitial, haccepts, hsilent', opened]
  · exact
      { client := rfl
        server := rfl
        generation := rfl
        counted := Nat.le_add_left 1 1
        sawSyn := rfl
        sawSynAck := rfl
        exchanges := rfl
        stored := rfl
        total := rfl
        issueless := fun _ => ⟨rfl, fun side => by cases side with
          | client => rfl
          | server => rfl⟩
        issued := fun hsome => by
          refine absurd (fun before side tcp after heq _ => ?_) hsome
          simp at heq }

/-- The analyzer after more segments. -/
theorem Going.run (hlimits : session.WithinLimits s) {rest : List Segment}
    (hsegments : session.segments = taken ++ rest) (h : Going session taken flow total) :
    ∃ flow' total', (rest.map session.send).foldl
        (fun a segment => a.observeSegment s segment.1 segment.2.1 segment.2.2)
        (lone session.key flow total) = lone session.key flow' total' ∧
      Going session session.segments flow' total' := by
  induction rest generalizing taken flow total with
  | nil =>
    rw [List.append_nil] at hsegments
    exact ⟨flow, total, rfl, hsegments ▸ h⟩
  | cons segment rest ih =>
    obtain ⟨side, tcp⟩ := segment
    have hplain : tcp.syn = false := session.plain (side, tcp) (by simp [hsegments])
    have hends : flow.ends tcp = false := by simp [SessionFlow.ends, Tcp.initialSyn, hplain]
    have hfits : flow.Fits s total tcp := by
      have hoctets : octetsOf (session.segments.map Prod.snd) =
          octetsOf (taken.map Prod.snd) + tcp.data.length + octetsOf (rest.map Prod.snd) := by
        rw [hsegments]
        simp [octetsOf, Nat.add_assoc]
      obtain ⟨hsession, htotal⟩ := hlimits
      rw [hoctets] at hsession htotal
      rw [SessionFlow.Fits, h.stored, h.total]
      omega
    have hnext : Going session (taken ++ [(side, tcp)]) (flow.receive s side tcp total).1
        (flow.receive s side tcp total).2 := by
      by_cases hempty : tcp.data.octets = []
      · exact h.pass hplain hempty
      · exact h.take hplain hempty (session.inOrder taken side tcp rest hsegments hempty) hfits
    have hobserve : (lone session.key flow total).observeSegment s (session.send (side, tcp)).1
        (session.send (side, tcp)).2.1 tcp =
        lone session.key (flow.receive s side tcp total).1 (flow.receive s side tcp total).2 := by
      have hlone := @observeSegment_lone s flow total (session.send (side, tcp)).1
        (session.send (side, tcp)).2.1 tcp hends
      rw [h.direction, session.key_send] at hlone
      exact hlone
    obtain ⟨flow', total', hrun, hgoing⟩ := ih (by rw [hsegments]; simp) hnext
    refine ⟨flow', total', ?_, hgoing⟩
    rw [List.map_cons, List.foldl_cons]
    have htcp : (session.send (side, tcp)).2.2 = tcp := by
      cases side with
      | client => rfl
      | server => rfl
    rw [htcp, hobserve]
    exact hrun

/-- The analyzer after a capture of the session. -/
theorem scan_captured {packets : List Packet} (hcapture : session.Captured packets)
    (htracked : 1 ≤ s.maximumTrackedSessions) (hlimits : session.WithinLimits s) :
    ∃ flow total, scan s packets = lone session.key flow total ∧
      Going session session.segments flow total := by
  obtain ⟨flow, hopened, hgoing⟩ := going_opened session htracked
  obtain ⟨flow', total', hrun, hgoing'⟩ := Going.run hlimits (List.nil_append _).symm hgoing
  refine ⟨flow', total', ?_, hgoing'⟩
  rw [scan_eq, hcapture, List.foldl_cons, List.foldl_cons, ← hrun, ← hopened]
  rfl

end Going

/-! ### The report -/

section Report

variable {session : TcpSession} {flow : SessionFlow} {total : Nat} {sha256 : Bytes → Digest}

theorem length_streamOf (segments : List Segment) :
    (streamOf segments).length = octetsOf (segments.map Prod.snd) := by
  simp [streamOf, octetsOf, tagged, List.length_flatMap, Function.comp_def]

theorem Merged.length_le {stream : List (Side × UInt8)} {exchanges : List Exchange}
    (h : Merged stream exchanges) {exchange : Exchange} (hmem : exchange ∈ exchanges) :
    exchange.2.length ≤ stream.length := by
  rw [← h.stream, List.length_flatMap]
  have hlength : (tagged exchange).length = exchange.2.length := List.length_map _
  rw [← hlength]
  exact List.le_sum_of_mem (List.mem_map_of_mem (f := fun e => (tagged e).length) hmem)

/-- A session is reported when its ports are not zero. -/
theorem Going.representable (h : Going session session.segments flow total)
    (hlimits : session.WithinLimits {}) :
    flow.Representable ↔ session.client.2 ≠ 0 ∧ session.server.2 ≠ 0 := by
  constructor
  · intro hrepresentable
    rw [← h.client, ← h.server]
    exact ⟨hrepresentable.client, hrepresentable.server⟩
  · rintro ⟨hclient, hserver⟩
    refine ⟨h.client ▸ hclient, h.server ▸ hserver, ?_, h.counted, fun exchange hexchange => ?_⟩
    · rw [h.generation]
      exact Nat.pow_pos (by decide)
    · rw [h.exchanges] at hexchange
      have hlength := (merged_assemble session.segments).length_le hexchange
      rw [length_streamOf] at hlength
      have hbound : octetsOf (session.segments.map Prod.snd) ≤ 4 * 1024 * 1024 := hlimits.1
      omega

/-- At the end of a session its issues are those that its segments showed. -/
theorem Going.allIssues (h : Going session session.segments flow total) :
    flow.allIssues = flow.issues := by
  have hexchanges : flow.exchanges.isEmpty = false := by
    rw [h.exchanges, ← Bool.not_eq_true, List.isEmpty_iff]
    exact fun hnil => session.payload (assemble_eq_nil hnil)
  simp [SessionFlow.allIssues, h.sawSyn, h.sawSynAck, hexchanges]

theorem issues_of_session {reported : CapturedSessionAnalysis} (h : flow.session sha256 = .ok reported) :
    reported.issues = flow.allIssues := by
  simp only [SessionFlow.session, bind_eq_ok, validated_eq_ok] at h
  obtain ⟨_, -, _, -, _, -, _, rfl⟩ := h
  rfl

/-- The analysis of one session reports it. -/
theorem sessions_of_finish {key : Endpoint × Endpoint} {analysis : StatefulCaptureAnalysis}
    (h : (StatefulSessionAnalyzer.lone key flow total).finish sha256 {} = .ok (some analysis)) :
    ∃ reported, flow.session sha256 = .ok reported ∧ analysis.sessions = [reported] := by
  rw [StatefulSessionAnalyzer.finish, if_neg (by simp [StatefulSessionAnalyzer.lone])] at h
  obtain ⟨analyzed, hanalyzed, h⟩ := bind_eq_ok.mp h
  obtain ⟨workload, -, h⟩ := bind_eq_ok.mp h
  obtain ⟨unordered, -, h⟩ := bind_eq_ok.mp h
  obtain rfl := Option.some.inj (Except.ok.inj h)
  obtain ⟨pairs, hpairs, hsorted⟩ := bind_eq_ok.mp hanalyzed
  obtain rfl := Except.ok.inj hsorted
  have hall : StatefulSessionAnalyzer.allFlows (StatefulSessionAnalyzer.lone key flow total) = [flow] := rfl
  rw [hall, mapM_eq_ok, List.forall₂_cons_left_iff] at hpairs
  obtain ⟨pair, rest, hpair, hrest, rfl⟩ := hpairs
  obtain rfl := List.forall₂_nil_left_iff.mp hrest
  obtain ⟨reported, hreported, hpair⟩ := bind_eq_ok.mp hpair
  obtain rfl := Except.ok.inj hpair
  refine ⟨reported, hreported, ?_⟩
  have hperm := List.perm_singleton.mp (perm_sortById (fun item : SessionFlow × CapturedSessionAnalysis =>
    item.2.id) [(flow, reported)])
  rw [hperm]
  rfl

/-- The template of a reconstructible session has its exchanges. -/
theorem template_lone {key : Endpoint × Endpoint} {reported : CapturedSessionAnalysis}
    (h : flow.session sha256 = .ok reported) (hreconstructible : reported.reconstructible = true) :
    ∃ template, (StatefulSessionAnalyzer.lone key flow total).template sha256 reported.id = .ok template ∧
      template.exchanges = flow.exchanges := by
  obtain ⟨octets, hoctets⟩ := SessionFlow.updateExchanges_ok_iff.mpr
    (SessionFlow.session_ok_iff.mp ⟨reported, h⟩).encodable
  obtain ⟨digest, hdigest⟩ : ∃ digest, flow.templateDigest sha256 = .ok digest :=
    ⟨_, map_eq_ok.mpr ⟨_, bind_eq_ok.mpr ⟨octets, hoctets, rfl⟩, rfl⟩⟩
  refine ⟨⟨reported.id, reported.digest, digest, flow.exchanges⟩, ?_, rfl⟩
  show templateFrom sha256 reported.id [flow] = _
  simp [templateFrom, h, hreconstructible, hdigest]

/-- How many sessions are reported does not matter to the sessions. -/
theorem extractSessionTemplate_eq (packets : List Packet) (sessionId : Nat) :
    extractSessionTemplate sha256 packets sessionId =
      (StatefulSessionAnalyzer.scan {} packets).template sha256 sessionId := rfl

/-- A session that is reported complete did not reach the end of the sequence numbers. -/
theorem unwrapped_of_complete {packets : List Packet} (hcapture : session.Captured packets)
    (hlimits : session.WithinLimits {}) (h : Complete sha256 session packets) :
    session.Unwrapped ∧ session.client.2 ≠ 0 ∧ session.server.2 ≠ 0 := by
  obtain ⟨flow, total, hscan, hgoing⟩ := @scan_captured session {} packets hcapture (by decide) hlimits
  obtain ⟨analysis, reported, template, hfinish, hsessions, -, hissues, -⟩ := h
  rw [hscan] at hfinish
  obtain ⟨reported', hreported, hsessions'⟩ := sessions_of_finish hfinish
  obtain rfl : reported = reported' := by
    rw [hsessions] at hsessions'
    exact List.head_eq_of_cons_eq hsessions'
  refine ⟨?_, (hgoing.representable hlimits).mp (SessionFlow.session_ok_iff.mp ⟨_, hreported⟩)⟩
  by_contra hwrapped
  rw [issues_of_session hreported, hgoing.allIssues] at hissues
  exact hgoing.issued hwrapped hissues

/-- A session that does not reach the end of the sequence numbers is reported complete. -/
theorem complete_of_unwrapped {packets : List Packet} (hcapture : session.Captured packets)
    (hlimits : session.WithinLimits {}) (hunwrapped : session.Unwrapped)
    (hports : session.client.2 ≠ 0 ∧ session.server.2 ≠ 0) : Complete sha256 session packets := by
  obtain ⟨flow, total, hscan, hgoing⟩ := @scan_captured session {} packets hcapture (by decide) hlimits
  have hrepresentable := (hgoing.representable hlimits).mpr hports
  have hall : ∀ flow' ∈ (StatefulSessionAnalyzer.lone session.key flow total).allFlows,
      flow'.Representable := by
    intro flow' hflow'
    obtain rfl := List.mem_singleton.mp hflow'
    exact hrepresentable
  obtain ⟨result, hfinish⟩ := (@StatefulSessionAnalyzer.finish_ok_iff sha256 {} _).mpr hall
  obtain ⟨analysis, rfl⟩ : ∃ analysis, result = some analysis := by
    rw [StatefulSessionAnalyzer.finish, if_neg (by simp [StatefulSessionAnalyzer.lone])] at hfinish
    obtain ⟨_, -, h⟩ := bind_eq_ok.mp hfinish
    obtain ⟨_, -, h⟩ := bind_eq_ok.mp h
    obtain ⟨_, -, h⟩ := bind_eq_ok.mp h
    exact ⟨_, (Except.ok.inj h).symm⟩
  obtain ⟨reported, hreported, hsessions⟩ := sessions_of_finish hfinish
  have hissues : flow.allIssues = [] := hgoing.allIssues.trans (hgoing.issueless hunwrapped).1
  have hreconstructible : reported.reconstructible = true := by
    rw [SessionFlow.allIssues_of_session hreported, hissues]
    rfl
  obtain ⟨template, htemplate, hexchanges⟩ :=
    @template_lone flow total sha256 session.key reported hreported hreconstructible
  refine ⟨analysis, reported, template, hscan ▸ hfinish, hsessions, hreconstructible,
    (issues_of_session hreported).trans hissues, ?_, ?_⟩
  · rw [extractSessionTemplate_eq, hscan]
    exact htemplate
  · rw [hexchanges, hgoing.exchanges]
    exact merged_assemble _

/-- A session without loss and within the limits is reported complete exactly when no payload begins
behind the end of the sequence numbers and its ports are not zero. -/
theorem session_complete_iff {packets : List Packet} (hcapture : session.Captured packets)
    (hlimits : session.WithinLimits {}) :
    Complete sha256 session packets ↔
      session.Unwrapped ∧ session.client.2 ≠ 0 ∧ session.server.2 ≠ 0 :=
  ⟨unwrapped_of_complete hcapture hlimits, fun h => complete_of_unwrapped hcapture hlimits h.1 h.2⟩

end Report

/-! ### The end of the sequence numbers -/

/-- Segments of the two hosts. -/
def clientTcp (seq : UInt32) (flags : UInt16) (data : Payload) : Tcp := ⟨40000, 80, seq, flags, data⟩

def serverTcp (seq : UInt32) (flags : UInt16) (data : Payload) : Tcp := ⟨80, 40000, seq, flags, data⟩

/-- PSH and ACK. -/
theorem syn_push (sport dport : UInt16) (seq : UInt32) (data : Payload) :
    Tcp.syn ⟨sport, dport, seq, 24, data⟩ = false := by
  show decide ((24 : UInt16) &&& 2 ≠ 0) = false
  decide

/-- A session of three bytes, whose client begins at a sequence number. -/
def threeBytes (start : UInt32) : TcpSession where
  client := (sampleHost 1, 40000)
  server := (sampleHost 2, 80)
  distinct := by decide
  syn := clientTcp start 2 .empty
  synAck := serverTcp 2000 18 .empty
  segments :=
    [(.client, clientTcp (start + 1) 24 oneByte), (.server, serverTcp 2001 24 oneByte),
      (.client, clientTcp (start + 2) 24 oneByte)]
  opening := by
    refine ⟨?_, rfl⟩
    show (decide ((2 : UInt16) &&& 2 ≠ 0) && !decide ((2 : UInt16) &&& 16 ≠ 0)) = true
    decide
  accepting := ⟨by decide, rfl⟩
  plain := by
    intro segment hsegment
    simp only [List.mem_cons, List.not_mem_nil, or_false] at hsegment
    rcases hsegment with rfl | rfl | rfl
    · exact syn_push ..
    · exact syn_push ..
    · exact syn_push ..
  inOrder := by
    intro before side tcp after heq _
    match before, heq with
    | [], heq =>
      cases heq
      exact UInt32.toNat_add start 1
    | [_], heq =>
      cases heq
      rfl
    | [_, _], heq =>
      cases heq
      exact UInt32.toNat_add start 2
    | _ :: _ :: _ :: _, heq => simp at heq
  payload := by simp [payloads, clientTcp, serverTcp, oneByte]

/-- The capture of the session. -/
def threeBytesCapture (start : UInt32) : List Packet :=
  [toServer start 2 .empty, toClient 2000 18 .empty, toServer (start + 1) 24 oneByte,
    toClient 2001 24 oneByte, toServer (start + 2) 24 oneByte]

theorem threeBytes_captured (start : UInt32) : (threeBytes start).Captured (threeBytesCapture start) := by
  rfl

theorem threeBytes_within (start : UInt32) : (threeBytes start).WithinLimits {} := by
  have hoctets : octetsOf ((threeBytes start).segments.map Prod.snd) = 3 := rfl
  rw [TcpSession.WithinLimits, hoctets]
  decide

/-- A client that begins two before the end. -/
theorem not_complete_threeBytes :
    (threeBytes 4294967294).Captured (threeBytesCapture 4294967294) ∧
      (threeBytes 4294967294).WithinLimits {} ∧
      ¬Complete sampleHash (threeBytes 4294967294) (threeBytesCapture 4294967294) := by
  refine ⟨threeBytes_captured _, threeBytes_within _, fun hcomplete => ?_⟩
  have hunwrapped := (unwrapped_of_complete (threeBytes_captured _) (threeBytes_within _) hcomplete).1
  have hlast := hunwrapped ((threeBytes 4294967294).segments.take 2) .client
    (clientTcp (4294967294 + 2) 24 oneByte) [] rfl (by decide)
  revert hlast
  decide

theorem session_complete_iff_threeBytes :
    Complete sampleHash (threeBytes 1000) (threeBytesCapture 1000) ↔
      (threeBytes 1000).Unwrapped ∧ (threeBytes 1000).client.2 ≠ 0 ∧ (threeBytes 1000).server.2 ≠ 0 :=
  session_complete_iff (threeBytes_captured 1000) (threeBytes_within 1000)

end TrexCli.Capture
