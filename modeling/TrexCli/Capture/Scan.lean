import TrexCli.Capture.Datagram

/-!
# What a packet does to the flows

A packet that is no UDP packet over IPv4 changes nothing; a UDP packet is omitted, or its datagram is
filed in one flow, a live one or one that it begins, which takes the datagram or notes an issue.
-/

namespace TrexCli.Capture

/-- A datagram with its endpoints. -/
structure Sent where
  source : Endpoint
  destination : Endpoint
  payload : Payload

/-- The datagram of a frame, if a flow can have it. -/
def Ethernet.sent? (ethernet : Ethernet) : Option Sent :=
  ethernet.ipUdp?.bind fun ip =>
    (DatagramFlowAnalyzer.eligible? ethernet ip).map fun udp =>
      ⟨(ip.src, udp.sport), (ip.dst, udp.dport), udp.data⟩

/-- The key of the flow of a datagram. -/
def Sent.key (sent : Sent) : Endpoint × Endpoint := flowKey sent.source sent.destination

/-- A datagram that a flow can have has a port on both sides. -/
theorem Ethernet.ports_of_sent {ethernet : Ethernet} {sent : Sent} (h : ethernet.sent? = some sent) :
    sent.source.2 ≠ 0 ∧ sent.destination.2 ≠ 0 := by
  unfold sent? at h
  obtain ⟨ip, -, h⟩ := Option.bind_eq_some_iff.mp h
  obtain ⟨udp, hudp, rfl⟩ := Option.map_eq_some_iff.mp h
  unfold DatagramFlowAnalyzer.eligible? at hudp
  split at hudp
  · exact absurd hudp (by simp)
  · split at hudp
    · split at hudp
      · exact absurd hudp (by simp)
      · rename_i hports
        obtain rfl := Option.some.inj hudp
        exact not_or.mp hports
    · exact absurd hudp (by simp)

namespace DatagramFlow

variable {s : DatagramSettings} {flow : DatagramFlow} {total : Nat} {source : Endpoint}
  {payload : Payload} {value : String} {t : ℚ}

@[simp] theorem issue_initiator : (flow.issue value).initiator = flow.initiator := by
  unfold issue
  split <;> rfl

@[simp] theorem issue_responder : (flow.issue value).responder = flow.responder := by
  unfold issue
  split <;> rfl

@[simp] theorem issue_datagrams : (flow.issue value).datagrams = flow.datagrams := by
  unfold issue
  split <;> rfl

@[simp] theorem issue_elapsedMicroseconds :
    (flow.issue value).elapsedMicroseconds = flow.elapsedMicroseconds := by
  unfold issue
  split <;> rfl

theorem issue_issues_ne_nil : (flow.issue value).issues ≠ [] := by
  unfold issue
  split
  · rename_i h
    exact List.ne_nil_of_mem h
  · simp

@[simp] theorem advance_initiator : (flow.advance t).initiator = flow.initiator := rfl

@[simp] theorem advance_responder : (flow.advance t).responder = flow.responder := rfl

@[simp] theorem advance_datagrams : (flow.advance t).datagrams = flow.datagrams := rfl

@[simp] theorem advance_issues : (flow.advance t).issues = flow.issues := rfl

theorem le_advance : flow.elapsedMicroseconds ≤ (flow.advance t).elapsedMicroseconds :=
  Nat.le_add_right _ _

/-- No limit is exceeded by one more datagram. -/
def Fits (s : DatagramSettings) (flow : DatagramFlow) (total : Nat) (payload : Payload) : Prop :=
  flow.datagrams.length < s.maximumDatagramsPerFlow ∧
    flow.storedPayloadBytes + payload.length ≤ s.maximumPayloadBytesPerFlow ∧
    total + payload.length ≤ s.maximumTotalPayloadBytes

/-- The flow with one more datagram. -/
def take (flow : DatagramFlow) (source : Endpoint) (payload : Payload) : DatagramFlow :=
  { flow with
    datagrams := flow.datagrams ++ [⟨flow.direction source, flow.elapsedMicroseconds, payload⟩]
    storedPayloadBytes := flow.storedPayloadBytes + payload.length }

theorem receive_of_fits (h : flow.Fits s total payload) :
    flow.receive s total source payload = (flow.take source payload, total + payload.length) := by
  obtain ⟨hcount, hflow, htotal⟩ := h
  unfold receive
  rw [if_neg (by omega), if_neg (by omega), if_neg (by omega)]
  rfl

theorem receive_of_not_fits (source : Endpoint) (h : ¬flow.Fits s total payload) :
    ∃ value, flow.receive s total source payload = (flow.issue value, total) := by
  unfold receive
  split
  · exact ⟨_, rfl⟩
  · split
    · exact ⟨_, rfl⟩
    · split
      · exact ⟨_, rfl⟩
      · exact absurd ⟨by omega, by omega, by omega⟩ h

/-- A flow takes a datagram, or notes an issue. -/
theorem receive_cases (s : DatagramSettings) (flow : DatagramFlow) (total : Nat) (source : Endpoint)
    (payload : Payload) :
    (flow.receive s total source payload).1 = flow.take source payload ∨
      ∃ value, (flow.receive s total source payload).1 = flow.issue value := by
  by_cases h : flow.Fits s total payload
  · exact .inl (by rw [receive_of_fits h])
  · obtain ⟨value, heq⟩ := receive_of_not_fits source h
    exact .inr ⟨value, by rw [heq]⟩

@[simp] theorem receive_initiator :
    (flow.receive s total source payload).1.initiator = flow.initiator := by
  rcases receive_cases s flow total source payload with h | ⟨value, h⟩
  · rw [h]
    rfl
  · rw [h, issue_initiator]

@[simp] theorem receive_responder :
    (flow.receive s total source payload).1.responder = flow.responder := by
  rcases receive_cases s flow total source payload with h | ⟨value, h⟩
  · rw [h]
    rfl
  · rw [h, issue_responder]

end DatagramFlow

namespace DatagramFlowAnalyzer

variable {s : DatagramSettings} {a : DatagramFlowAnalyzer} {t : ℚ} {sent : Sent}
  {ethernet : Ethernet}

theorem observe_of_not_udp (h : ethernet.ipUdp? = none) : a.observe s t ethernet = a := by
  unfold observe
  rw [h]

theorem observe_of_not_sent (hudp : ethernet.ipUdp?.isSome) (h : ethernet.sent? = none) :
    a.observe s t ethernet = a.omitPacket := by
  obtain ⟨ip, hip⟩ := Option.isSome_iff_exists.mp hudp
  unfold observe
  unfold Ethernet.sent? at h
  rw [hip, Option.bind_some, Option.map_eq_none_iff] at h
  simp only [hip, h]

theorem observe_of_sent (h : ethernet.sent? = some sent) :
    a.observe s t ethernet = a.observeDatagram s t sent.source sent.destination sent.payload := by
  unfold Ethernet.sent? at h
  obtain ⟨ip, hip, h⟩ := Option.bind_eq_some_iff.mp h
  obtain ⟨udp, hudp, rfl⟩ := Option.map_eq_some_iff.mp h
  unfold observe
  simp only [hip, hudp]

theorem ipUdp?_of_sent (h : ethernet.sent? = some sent) : ethernet.ipUdp?.isSome := by
  obtain ⟨ip, hip, -⟩ := Option.bind_eq_some_iff.mp h
  rw [hip]
  rfl

/-- What filing a datagram makes of the analyzer: of a live flow, or of one that it begins. -/
inductive Filed (s : DatagramSettings) (a : DatagramFlowAnalyzer) (t : ℚ) (sent : Sent) :
    DatagramFlowAnalyzer → Prop
  | live (i : Nat) (flow : DatagramFlow)
      (hlive : a.live s t sent.source sent.destination = some (i, flow))
      (hflow : a.flows[i]? = some flow) (hactive : a.active sent.key = some i) :
      Filed s a t sent
        { a with
          flows := a.flows.set i
            ((flow.advance t).receive s a.storedPayloadBytes sent.source sent.payload).1
          storedPayloadBytes :=
            ((flow.advance t).receive s a.storedPayloadBytes sent.source sent.payload).2 }
  | begun (hlive : a.live s t sent.source sent.destination = none)
      (hlimit : a.flows.length < s.maximumTrackedFlows) :
      Filed s a t sent
        { a with
          active := fun key => if key = sent.key then some a.flows.length else a.active key
          flows := a.flows ++ [((begun t sent.source sent.destination).receive s
            a.storedPayloadBytes sent.source sent.payload).1]
          storedPayloadBytes := ((begun t sent.source sent.destination).receive s
            a.storedPayloadBytes sent.source sent.payload).2 }

theorem live_eq_some {source destination : Endpoint} {i : Nat} {flow : DatagramFlow}
    (h : a.live s t source destination = some (i, flow)) :
    a.flows[i]? = some flow ∧ a.active (flowKey source destination) = some i := by
  unfold live current at h
  obtain ⟨hcurrent, -⟩ := Option.filter_eq_some_iff.mp h
  obtain ⟨j, hactive, hmap⟩ := Option.bind_eq_some_iff.mp hcurrent
  obtain ⟨flow', hflow, heq⟩ := Option.map_eq_some_iff.mp hmap
  obtain ⟨rfl, rfl⟩ := Prod.mk.inj heq
  exact ⟨hflow, hactive⟩

/-- A datagram is omitted when its flow is not tracked, and filed otherwise. -/
theorem observeDatagram_cases (s : DatagramSettings) (a : DatagramFlowAnalyzer) (t : ℚ)
    (sent : Sent) :
    a.live s t sent.source sent.destination = none ∧ s.maximumTrackedFlows ≤ a.flows.length ∧
        a.observeDatagram s t sent.source sent.destination sent.payload = a.omitPacket ∨
      Filed s a t sent (a.observeDatagram s t sent.source sent.destination sent.payload) := by
  unfold observeDatagram track
  cases hlive : a.live s t sent.source sent.destination with
  | none =>
    dsimp only
    by_cases hlimit : s.maximumTrackedFlows ≤ a.flows.length
    · rw [if_pos hlimit]
      exact .inl ⟨rfl, hlimit, rfl⟩
    · rw [if_neg hlimit]
      right
      dsimp only
      rw [List.set_append_right _ _ le_rfl, Nat.sub_self, List.set_cons_zero]
      exact .begun hlive (by omega)
  | some p =>
    obtain ⟨i, flow⟩ := p
    obtain ⟨hflow, hactive⟩ := live_eq_some hlive
    exact .inr (.live i flow hlive hflow hactive)

/-- The three things that `observe` does. -/
theorem observe_cases (s : DatagramSettings) (a : DatagramFlowAnalyzer) (t : ℚ)
    (ethernet : Ethernet) :
    ethernet.ipUdp? = none ∧ a.observe s t ethernet = a ∨
      ethernet.ipUdp?.isSome ∧ a.observe s t ethernet = a.omitPacket ∨
      ∃ sent, ethernet.sent? = some sent ∧ Filed s a t sent (a.observe s t ethernet) := by
  cases hudp : ethernet.ipUdp? with
  | none => exact .inl ⟨rfl, observe_of_not_udp hudp⟩
  | some ip =>
    have hsome : ethernet.ipUdp?.isSome := by
      rw [hudp]
      rfl
    cases hsent : ethernet.sent? with
    | none => exact .inr (.inl ⟨rfl, observe_of_not_sent hsome hsent⟩)
    | some sent =>
      rw [observe_of_sent hsent]
      rcases observeDatagram_cases s a t sent with ⟨-, -, heq⟩ | hfiled
      · exact .inr (.inl ⟨rfl, heq⟩)
      · exact .inr (.inr ⟨sent, rfl, hfiled⟩)

end DatagramFlowAnalyzer

/-! ### Frames for examples -/

/-- A hash for examples: the number that the octets are after a one. -/
def sampleHash (octets : Bytes) : Digest :=
  @Fin.ofNat (2 ^ 256) digest_neZero (octets.foldl (fun n o => n * 256 + o.toNat) 1)

/-- 10.0.0.n -/
def sampleHost (n : UInt8) : PackedIpv4 := ⟨[10, 0, 0, n], rfl⟩

/-- 02:00:00:00:00:n -/
def sampleHardware (n : UInt8) : HardwareAddress := ⟨[2, 0, 0, 0, 0, n], rfl⟩

/-- A UDP packet between two such hosts. -/
def sampleUdp (source destination : UInt8) (sport dport : UInt16) (data : Payload) : Ethernet where
  src := sampleHardware source
  dst := sampleHardware destination
  data := .ip ⟨ipProtoUdp, sampleHost source, sampleHost destination, .udp ⟨sport, dport, data⟩⟩

end TrexCli.Capture
