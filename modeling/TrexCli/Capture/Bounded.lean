import TrexCli.Capture.Analysis
import TrexCli.Capture.Scan

/-!
# When an analysis succeeds

Either analyzer finishes when all its records can be represented. For a session that is a matter of
its ports, for a UDP flow of its having a datagram at all: a flow is begun before the limits are
looked at, and one that is refused its first datagram stays in the records without any.
-/

namespace TrexCli.Capture

/-! ### Sessions -/

namespace SessionFlow

variable {s : SessionSettings} {flow : SessionFlow} {side : Side} {tcp : Tcp} {total : Nat}
  {value : String}

/-- No limit is exceeded by the payload of a segment. -/
def Fits (s : SessionSettings) (flow : SessionFlow) (total : Nat) (tcp : Tcp) : Prop :=
  flow.storedPayloadBytes + tcp.data.length ≤ s.maximumPayloadBytesPerSession ∧
    total + tcp.data.length ≤ s.maximumTotalPayloadBytes

instance (s : SessionSettings) (flow : SessionFlow) (total : Nat) (tcp : Tcp) :
    Decidable (flow.Fits s total tcp) :=
  inferInstanceAs (Decidable (_ ∧ _))

/-- What stays the same while a segment is received. -/
structure Same (flow flow' : SessionFlow) : Prop where
  client : flow'.client = flow.client
  server : flow'.server = flow.server
  generation : flow'.generation = flow.generation
  exchanges : flow'.exchanges = flow.exchanges
  stored : flow'.storedPayloadBytes = flow.storedPayloadBytes

theorem Same.issue {flow' : SessionFlow} (h : Same flow flow') (value : String) :
    Same flow (flow'.issue value) := by
  unfold SessionFlow.issue
  split
  · exact h
  · exact ⟨h.client, h.server, h.generation, h.exchanges, h.stored⟩

@[simp] theorem issue_packetCount : (flow.issue value).packetCount = flow.packetCount := by
  unfold issue
  split <;> rfl

variable (flow side tcp) in
theorem handshake_same : Same flow (flow.handshake side tcp) := by
  have hcounted : Same flow { flow with
      packetCount := flow.packetCount + 1
      closed := flow.closed || tcp.closes } := ⟨rfl, rfl, rfl, rfl, rfl⟩
  unfold handshake
  dsimp only
  split
  · split
    · exact ⟨rfl, rfl, rfl, rfl, rfl⟩
    · have h := hcounted.issue "conflicting client direction"
      exact ⟨h.client, h.server, h.generation, h.exchanges, h.stored⟩
  · split
    · split
      · have h := hcounted.issue "SYN-ACK is in the client direction"
        exact ⟨h.client, h.server, h.generation, h.exchanges, h.stored⟩
      · exact ⟨rfl, rfl, rfl, rfl, rfl⟩
    · exact hcounted

theorem handshake_packetCount :
    (flow.handshake side tcp).packetCount = flow.packetCount + 1 := by
  unfold handshake
  dsimp only
  split
  · split
    · rfl
    · exact issue_packetCount
  · split
    · split
      · exact issue_packetCount
      · rfl
    · rfl

variable (flow side tcp) in
theorem sequence_same : Same flow (flow.sequence side tcp) := by
  have hclient : Same flow { flow with
      clientPayloadBytes := flow.clientPayloadBytes + tcp.data.length } := ⟨rfl, rfl, rfl, rfl, rfl⟩
  have hserver : Same flow { flow with
      serverPayloadBytes := flow.serverPayloadBytes + tcp.data.length } := ⟨rfl, rfl, rfl, rfl, rfl⟩
  unfold sequence
  dsimp only
  split
  · cases side
    · exact hclient.issue _
    · exact hserver.issue _
  · split
    · cases side
      · exact hclient.issue _
      · exact hserver.issue _
    · split
      · cases side
        · exact hclient.issue _
        · exact hserver.issue _
      · cases side
        · exact ⟨rfl, rfl, rfl, rfl, rfl⟩
        · exact ⟨rfl, rfl, rfl, rfl, rfl⟩

theorem sequence_packetCount : (flow.sequence side tcp).packetCount = flow.packetCount := by
  unfold sequence
  dsimp only
  split
  · cases side <;> exact issue_packetCount
  · split
    · cases side <;> exact issue_packetCount
    · split
      · cases side <;> exact issue_packetCount
      · cases side <;> rfl

/-- The flow after a segment: its payload is in the exchanges, if it has one and the limits allow. -/
structure Received (s : SessionSettings) (flow : SessionFlow) (side : Side) (tcp : Tcp) (total : Nat)
    (flow' : SessionFlow) : Prop where
  client : flow'.client = flow.client
  server : flow'.server = flow.server
  generation : flow'.generation = flow.generation
  packetCount : flow'.packetCount = flow.packetCount + 1
  exchanges : flow'.exchanges =
    if tcp.data.octets ≠ [] ∧ flow.Fits s total tcp then
      extend side flow.exchanges tcp.data.octets
    else flow.exchanges

theorem receive_received : Received s flow side tcp total (flow.receive s side tcp total).1 := by
  have hshake := handshake_same flow side tcp
  have hsame := sequence_same (flow.handshake side tcp) side tcp
  have hstored := hsame.stored.trans hshake.stored
  have hcount : ((flow.handshake side tcp).sequence side tcp).packetCount = flow.packetCount + 1 :=
    sequence_packetCount.trans handshake_packetCount
  unfold receive
  dsimp only
  by_cases hempty : tcp.data.octets = []
  · rw [if_pos hempty]
    refine ⟨hshake.client, hshake.server, hshake.generation, handshake_packetCount, ?_⟩
    rw [if_neg fun h => h.1 hempty]
    exact hshake.exchanges
  · rw [if_neg hempty]
    have hissue := hsame.issue "session payload exceeds the per-session analysis limit"
    have hissue' := hsame.issue "capture payload exceeds the total session analysis limit"
    unfold store
    split
    · rename_i hover
      refine ⟨hissue.client.trans hshake.client, hissue.server.trans hshake.server,
        hissue.generation.trans hshake.generation, issue_packetCount.trans hcount, ?_⟩
      rw [if_neg fun h => by have := h.2.1; omega]
      exact hissue.exchanges.trans hshake.exchanges
    · split
      · rename_i hover
        refine ⟨hissue'.client.trans hshake.client, hissue'.server.trans hshake.server,
          hissue'.generation.trans hshake.generation, issue_packetCount.trans hcount, ?_⟩
        rw [if_neg fun h => by have := h.2.2; omega]
        exact hissue'.exchanges.trans hshake.exchanges
      · rename_i hflow htotal
        refine ⟨hsame.client.trans hshake.client, hsame.server.trans hshake.server,
          hsame.generation.trans hshake.generation, hcount, ?_⟩
        rw [if_pos ⟨hempty, by omega, by omega⟩]
        show extend side _ _ = _
        rw [hsame.exchanges, hshake.exchanges]

/-- A session can be analyzed. -/
structure Representable (flow : SessionFlow) : Prop where
  client : flow.client.2 ≠ 0
  server : flow.server.2 ≠ 0
  generation : flow.generation < 256 ^ 8
  counted : 1 ≤ flow.packetCount
  encodable : ∀ exchange ∈ flow.exchanges, exchange.2.length < 256 ^ 8

theorem updateExchanges_ok_iff {exchanges : List Exchange} :
    (∃ octets, updateExchanges exchanges = .ok octets) ↔
      ∀ exchange ∈ exchanges, exchange.2.length < 256 ^ 8 := by
  induction exchanges with
  | nil => simp [updateExchanges]
  | cons exchange rest ih =>
    simp only [updateExchanges, bind_eq_ok, toBytes_eq_ok, List.forall_mem_cons, ← ih]
    constructor
    · rintro ⟨_, _, ⟨hlength, -⟩, octets, hoctets, -⟩
      exact ⟨hlength, octets, hoctets⟩
    · rintro ⟨hlength, octets, hoctets⟩
      exact ⟨_, _, ⟨hlength, rfl⟩, octets, hoctets, rfl⟩

theorem generationOctets_ok_iff :
    (∃ octets, flow.generationOctets = .ok octets) ↔ flow.generation < 256 ^ 8 := by
  unfold generationOctets
  split
  · rename_i hzero
    simp [hzero]
  · simp only [bind_eq_ok, toBytes_eq_ok]
    constructor
    · rintro ⟨_, _, ⟨hlt, -⟩, -⟩
      exact hlt
    · intro hlt
      exact ⟨_, _, ⟨hlt, rfl⟩, rfl⟩

theorem session_ok_iff {sha256 : Bytes → Digest} :
    (∃ session, flow.session sha256 = .ok session) ↔ flow.Representable := by
  simp only [SessionFlow.session, sessionOctets, bind_eq_ok, validated_eq_ok, SessionEndpoint.build,
    DatagramFlow.port_valid]
  constructor
  · rintro ⟨_, _, ⟨generation, hgeneration, octets, hoctets, -⟩, _, ⟨hclient, -⟩, _, ⟨hserver, -⟩,
      hcount, -⟩
    exact ⟨hclient, hserver, generationOctets_ok_iff.mp ⟨generation, hgeneration⟩, hcount,
      updateExchanges_ok_iff.mp ⟨octets, hoctets⟩⟩
  · rintro ⟨hclient, hserver, hgeneration, hcount, hexchanges⟩
    obtain ⟨generation, hgeneration⟩ := generationOctets_ok_iff.mpr hgeneration
    obtain ⟨octets, hoctets⟩ := updateExchanges_ok_iff.mpr hexchanges
    exact ⟨_, _, ⟨generation, hgeneration, octets, hoctets, rfl⟩, _, ⟨hclient, rfl⟩, _,
      ⟨hserver, rfl⟩, hcount, rfl⟩

/-- A session without issues has an exchange, and ports that a template can have. -/
theorem session_valid {sha256 : Bytes → Digest} {session : CapturedSessionAnalysis}
    (h : flow.session sha256 = .ok session) :
    session.reconstructible = true → 1 ≤ session.exchangeCount := by
  simp only [SessionFlow.session, bind_eq_ok, validated_eq_ok] at h
  obtain ⟨_, -, _, -, _, -, _, rfl⟩ := h
  intro hissues
  rw [Nat.one_le_iff_ne_zero]
  intro hzero
  rw [List.length_eq_zero_iff] at hzero
  simp [allIssues, hzero] at hissues

end SessionFlow

namespace StatefulSessionAnalyzer

variable {sha256 : Bytes → Digest} {s : SessionSettings} {a : StatefulSessionAnalyzer}

theorem analyzed_ok_iff : (∃ analyzed, a.analyzed sha256 = .ok analyzed) ↔
    ∀ flow ∈ a.allFlows, flow.Representable := by
  simp only [analyzed, bind_eq_ok, mapM_eq_ok]
  constructor
  · rintro ⟨_, pairs, hpairs, -⟩ flow hflow
    obtain ⟨p, -, session, hsession, -⟩ := exists_right_of_forall₂ hpairs hflow
    exact SessionFlow.session_ok_iff.mp ⟨session, hsession⟩
  · intro h
    obtain ⟨pairs, hpairs⟩ := exists_mapM (f := fun flow : SessionFlow => do
        let session ← flow.session sha256
        pure (flow, session)) fun flow hflow => by
      obtain ⟨session, hsession⟩ := SessionFlow.session_ok_iff.mpr (h flow hflow)
      exact ⟨(flow, session), bind_eq_ok.mpr ⟨session, hsession, rfl⟩⟩
    exact ⟨_, pairs, (mapM_eq_ok.mp hpairs).imp fun _ _ h => bind_eq_ok.mp h, rfl⟩

/-- The pairs are sessions of the flows. -/
theorem mem_analyzed {analyzed : List (SessionFlow × CapturedSessionAnalysis)}
    (h : a.analyzed sha256 = .ok analyzed) :
    ∀ p ∈ analyzed, p.1.session sha256 = .ok p.2 := by
  simp only [StatefulSessionAnalyzer.analyzed, bind_eq_ok, mapM_eq_ok] at h
  obtain ⟨pairs, hpairs, heq⟩ := h
  obtain rfl := Except.ok.inj heq
  intro p hp
  obtain ⟨flow, -, session, hsession, hp⟩ :=
    exists_left_of_forall₂ hpairs ((perm_sortById _ _).mem_iff.mp hp)
  obtain rfl := Except.ok.inj hp
  exact hsession

/-- An entry of `workload` has a template. -/
def Sound (entry : WorkloadEntry) : Prop := 1 ≤ entry.session.exchangeCount ∧ 1 ≤ entry.count

theorem sound_countSession {workload : List WorkloadEntry} {digest : Digest}
    {session : CapturedSessionAnalysis} (h : ∀ entry ∈ workload, Sound entry)
    (hsession : 1 ≤ session.exchangeCount) :
    ∀ entry ∈ countSession workload digest session, Sound entry := by
  intro entry hentry
  unfold countSession at hentry
  split at hentry
  · obtain ⟨entry', hentry', heq⟩ := List.mem_map.mp hentry
    split at heq <;> rw [← heq]
    · exact ⟨hsession, Nat.le_add_left _ _⟩
    · exact h entry' hentry'
  · rcases List.mem_append.mp hentry with hentry | hentry
    · exact h entry hentry
    · rw [List.mem_singleton.mp hentry]
      exact ⟨hsession, le_rfl⟩

theorem exists_tallySessions {items : List (SessionFlow × CapturedSessionAnalysis)}
    {workload : List WorkloadEntry} (hitems : ∀ p ∈ items, p.1.session sha256 = .ok p.2)
    (h : ∀ entry ∈ workload, Sound entry) :
    ∃ result, tallySessions sha256 workload items = .ok result ∧ ∀ entry ∈ result, Sound entry := by
  induction items generalizing workload with
  | nil => exact ⟨workload, rfl, h⟩
  | cons p items ih =>
    obtain ⟨flow, session⟩ := p
    have hrest := fun p hp => hitems p (List.mem_cons_of_mem _ hp)
    have hsession := hitems _ List.mem_cons_self
    unfold tallySessions
    by_cases hissues : session.reconstructible = true
    · rw [if_pos hissues]
      have hflow := SessionFlow.session_ok_iff.mp ⟨session, hsession⟩
      obtain ⟨octets, hoctets⟩ := SessionFlow.updateExchanges_ok_iff.mpr hflow.encodable
      have hdigest : ∃ digest, flow.templateDigest sha256 = .ok digest :=
        ⟨_, map_eq_ok.mpr ⟨_, bind_eq_ok.mpr ⟨octets, hoctets, rfl⟩, rfl⟩⟩
      obtain ⟨digest, hdigest⟩ := hdigest
      obtain ⟨result, hresult, hsound⟩ := @ih (countSession workload digest session) hrest
        (sound_countSession h (SessionFlow.session_valid hsession hissues))
      exact ⟨result, bind_eq_ok.mpr ⟨digest, hdigest, hresult⟩, hsound⟩
    · rw [if_neg hissues]
      exact ih hrest h

/-- `finish` returns exactly when every session can be represented. -/
theorem finish_ok_iff : (∃ result, a.finish sha256 s = .ok result) ↔
    ∀ flow ∈ a.allFlows, flow.Representable := by
  unfold finish
  by_cases hnone : a.flows = [] ∧ a.completedFlows = []
  · rw [if_pos hnone]
    exact ⟨fun _ flow hflow => by simp [allFlows, hnone.1, hnone.2] at hflow, fun _ => ⟨_, rfl⟩⟩
  · rw [if_neg hnone, ← @analyzed_ok_iff sha256]
    simp only [bind_eq_ok]
    constructor
    · rintro ⟨-, analyzed, hanalyzed, -⟩
      exact ⟨analyzed, hanalyzed⟩
    · rintro ⟨analyzed, hanalyzed⟩
      obtain ⟨workload, hworkload, hsound⟩ := @exists_tallySessions _ _ []
        (mem_analyzed hanalyzed) (by simp)
      obtain ⟨unordered, hunordered⟩ := @exists_mapM _ _ _ WorkloadEntry.template _
        fun entry hentry => by
          obtain ⟨hexchanges, hcount⟩ := hsound entry hentry
          obtain ⟨hlow, hhigh⟩ := entry.session.server.valid
          exact ⟨_, validated_eq_ok.mpr ⟨⟨hlow, hhigh, hexchanges, hcount⟩, rfl⟩⟩
      exact ⟨_, analyzed, hanalyzed, workload, hworkload, unordered, hunordered, rfl⟩

/-! ### What a segment may not do -/

/-- A flow that a segment begins has ports, and a generation that fits in its field. -/
def Begins (s : SessionSettings) (a : StatefulSessionAnalyzer) (generation : Nat) (tcp : Tcp) :
    Prop :=
  a.flows.length + a.completedFlows.length < s.maximumTrackedSessions →
    tcp.sport ≠ 0 ∧ tcp.dport ≠ 0 ∧ generation < 256 ^ 8

/-- The exchange that a segment extends stays shorter than its length field allows. -/
def Extends (s : SessionSettings) (a : StatefulSessionAnalyzer) (flow : SessionFlow)
    (source : Endpoint) (tcp : Tcp) : Prop :=
  flow.Fits s a.storedPayloadBytes tcp → ∀ previous,
    flow.exchanges.getLast? = some (flow.direction source, previous) →
      previous.length + tcp.data.length < 256 ^ 8

/-- The condition on a segment under which the sessions can still be represented. -/
def AdmitsSegment (s : SessionSettings) (a : StatefulSessionAnalyzer) (source destination : Endpoint)
    (tcp : Tcp) : Prop :=
  match a.flow? (flowKey source destination) with
  | none => Begins s a 0 tcp
  | some flow =>
    if flow.ends tcp then
      Begins s (a.complete (flowKey source destination) flow) (flow.generation + 1) tcp
    else Extends s a flow source tcp

/-- The condition on a frame under which the sessions can still be represented. -/
def Admits (s : SessionSettings) (a : StatefulSessionAnalyzer) (ethernet : Ethernet) : Prop :=
  match ethernet.tcp? with
  | none => True
  | some (ip, tcp) => a.AdmitsSegment s (ip.src, tcp.sport) (ip.dst, tcp.dport) tcp

section Step

variable {source destination : Endpoint} {tcp : Tcp} {generation : Nat}

theorem mem_allFlows {flow : SessionFlow} :
    flow ∈ a.allFlows ↔ flow ∈ a.completedFlows ∨ ∃ key, (key, flow) ∈ a.flows := by
  simp [allFlows]

theorem mem_of_flow? {key : Endpoint × Endpoint} {flow : SessionFlow} (h : a.flow? key = some flow) :
    (key, flow) ∈ a.flows := by
  obtain ⟨item, hitem, rfl⟩ := Option.map_eq_some_iff.mp h
  have hkey : item.1 = key := by simpa using List.find?_some hitem
  rw [← hkey]
  exact List.mem_of_find?_eq_some hitem

theorem encodable_extend {side : Side} {exchanges : List Exchange} {payload : Bytes}
    (h : ∀ exchange ∈ exchanges, exchange.2.length < 256 ^ 8) (hpayload : payload.length < 256 ^ 8) :
    (∀ exchange ∈ SessionFlow.extend side exchanges payload, exchange.2.length < 256 ^ 8) ↔
      ∀ previous, exchanges.getLast? = some (side, previous) →
        previous.length + payload.length < 256 ^ 8 := by
  unfold SessionFlow.extend
  cases hlast : exchanges.getLast? with
  | none => simpa using hpayload
  | some last =>
    obtain ⟨side', previous⟩ := last
    dsimp only
    by_cases hside : side' = side
    · subst hside
      rw [if_pos rfl]
      constructor
      · rintro hall _ ⟨⟩
        have hnew := hall (side', previous ++ payload)
          (List.mem_append_right _ (List.mem_singleton_self _))
        rwa [List.length_append] at hnew
      · intro hgrow exchange hexchange
        rcases List.mem_append.mp hexchange with hold | hnew
        · exact h exchange ((List.dropLast_sublist _).subset hold)
        · rw [List.mem_singleton.mp hnew, List.length_append]
          exact hgrow previous rfl
    · rw [if_neg hside]
      constructor
      · rintro - _ ⟨⟩
        exact absurd rfl hside
      · intro _ exchange hexchange
        rcases List.mem_append.mp hexchange with hold | hnew
        · exact h exchange hold
        · rw [List.mem_singleton.mp hnew]
          exact hpayload

/-- A flow that receives a segment can be represented when its last exchange can. -/
theorem representable_receive {flow flow' : SessionFlow} {side : Side} {total : Nat}
    (hflow : flow.Representable) (h : SessionFlow.Received s flow side tcp total flow') :
    flow'.Representable ↔ (flow.Fits s total tcp → ∀ previous,
      flow.exchanges.getLast? = some (side, previous) →
        previous.length + tcp.data.length < 256 ^ 8) := by
  have hends : flow'.Representable ↔ ∀ exchange ∈ flow'.exchanges, exchange.2.length < 256 ^ 8 := by
    refine ⟨fun h' => h'.encodable, fun hexchanges => ⟨?_, ?_, ?_, ?_, hexchanges⟩⟩
    · rw [h.client]
      exact hflow.client
    · rw [h.server]
      exact hflow.server
    · rw [h.generation]
      exact hflow.generation
    · rw [h.packetCount]
      omega
  rw [hends, h.exchanges]
  by_cases hfits : flow.Fits s total tcp
  · by_cases hempty : tcp.data.octets = []
    · rw [if_neg fun h => h.1 hempty]
      refine ⟨fun _ _ previous hlast => ?_, fun _ => hflow.encodable⟩
      have hprevious := hflow.encodable _ (List.mem_of_getLast? hlast)
      simpa [Payload.length, hempty] using hprevious
    · rw [if_pos ⟨hempty, hfits⟩, encodable_extend hflow.encodable tcp.data.length_lt_field]
      exact ⟨fun h _ => h, fun h => h hfits⟩
  · rw [if_neg fun h => hfits h.2]
    exact ⟨fun _ h => absurd h hfits, fun _ => hflow.encodable⟩

/-- A flow that a segment begins can be represented when it has ports and a small generation. -/
theorem representable_begun {side : Side} {total : Nat} {flow' : SessionFlow}
    (h : SessionFlow.Received s (begun source destination generation tcp.initialSyn) side tcp total
      flow') : flow'.Representable ↔ source.2 ≠ 0 ∧ destination.2 ≠ 0 ∧ generation < 256 ^ 8 := by
  have hbegun : SessionFlow.Same { client := source, server := destination, generation }
      (begun source destination generation tcp.initialSyn) := by
    unfold begun
    dsimp only
    split
    · exact ⟨rfl, rfl, rfl, rfl, rfl⟩
    · exact SessionFlow.Same.issue ⟨rfl, rfl, rfl, rfl, rfl⟩ _
  have hclient := h.client.trans hbegun.client
  have hserver := h.server.trans hbegun.server
  have hgeneration := h.generation.trans hbegun.generation
  constructor
  · intro hflow
    refine ⟨?_, ?_, ?_⟩
    · have := hflow.client
      rwa [hclient] at this
    · have := hflow.server
      rwa [hserver] at this
    · have := hflow.generation
      rwa [hgeneration] at this
  · rintro ⟨hsource, hdestination, hlt⟩
    refine ⟨by rwa [hclient], by rwa [hserver], by rwa [hgeneration], by rw [h.packetCount]; omega, ?_⟩
    rw [h.exchanges, hbegun.exchanges]
    split
    · exact (encodable_extend (by simp) tcp.data.length_lt_field).mpr (by simp)
    · simp

theorem representable_begin (h : ∀ flow ∈ a.allFlows, flow.Representable) :
    (∀ flow ∈ (a.begin s source destination generation tcp).allFlows, flow.Representable) ↔
      (a.flows.length + a.completedFlows.length < s.maximumTrackedSessions →
        source.2 ≠ 0 ∧ destination.2 ≠ 0 ∧ generation < 256 ^ 8) := by
  unfold StatefulSessionAnalyzer.begin
  by_cases hlimit : s.maximumTrackedSessions ≤ a.flows.length + a.completedFlows.length
  · rw [if_pos hlimit]
    exact ⟨fun _ hlt => absurd hlt (by omega), fun _ => h⟩
  · rw [if_neg hlimit, ← representable_begun SessionFlow.receive_received]
    constructor
    · intro hall _
      exact hall _ (mem_allFlows.mpr (.inr ⟨_, List.mem_append_right _ (List.mem_singleton_self _)⟩))
    · intro hnew flow hflow
      rcases mem_allFlows.mp hflow with hcompleted | ⟨key, hactive⟩
      · exact h flow (mem_allFlows.mpr (.inl hcompleted))
      · rcases List.mem_append.mp hactive with hold | hlast
        · exact h flow (mem_allFlows.mpr (.inr ⟨key, hold⟩))
        · obtain ⟨-, rfl⟩ := Prod.mk.inj (List.mem_singleton.mp hlast)
          exact hnew (by omega)

theorem representable_complete {key : Endpoint × Endpoint} {flow : SessionFlow}
    (h : ∀ flow ∈ a.allFlows, flow.Representable) (hflow : a.flow? key = some flow) :
    ∀ flow' ∈ (a.complete key flow).allFlows, flow'.Representable := by
  intro flow' hflow'
  rcases mem_allFlows.mp hflow' with hcompleted | ⟨key', hactive⟩
  · rcases List.mem_append.mp hcompleted with hold | hlast
    · exact h flow' (mem_allFlows.mpr (.inl hold))
    · rw [List.mem_singleton.mp hlast]
      exact h flow (mem_allFlows.mpr (.inr ⟨key, mem_of_flow? hflow⟩))
  · exact h flow' (mem_allFlows.mpr (.inr ⟨key', List.mem_of_mem_filter hactive⟩))

/-- A segment leaves the sessions representable exactly when it is admitted. -/
theorem representable_observeSegment (hsource : source.2 = tcp.sport)
    (hdestination : destination.2 = tcp.dport) (h : ∀ flow ∈ a.allFlows, flow.Representable) :
    (∀ flow ∈ (a.observeSegment s source destination tcp).allFlows, flow.Representable) ↔
      a.AdmitsSegment s source destination tcp := by
  unfold observeSegment AdmitsSegment Begins
  rw [← hsource, ← hdestination]
  dsimp only
  cases hflow : a.flow? (flowKey source destination) with
  | none => exact representable_begin h
  | some flow =>
    dsimp only
    split
    · exact representable_begin (representable_complete h hflow)
    · have hmem := mem_of_flow? hflow
      have hold := h flow (mem_allFlows.mpr (.inr ⟨_, hmem⟩))
      unfold Extends
      rw [← representable_receive hold SessionFlow.receive_received]
      constructor
      · intro hall
        exact hall _ (mem_allFlows.mpr (.inr ⟨_, List.mem_map.mpr ⟨_, hmem, if_pos rfl⟩⟩))
      · intro hnew other hother
        rcases mem_allFlows.mp hother with hcompleted | ⟨key, hactive⟩
        · exact h other (mem_allFlows.mpr (.inl hcompleted))
        · obtain ⟨item, hitem, heq⟩ := List.mem_map.mp hactive
          split at heq
          · obtain ⟨-, rfl⟩ := Prod.mk.inj heq
            exact hnew
          · rw [heq] at hitem
            exact h other (mem_allFlows.mpr (.inr ⟨key, hitem⟩))

theorem representable_observe (ethernet : Ethernet) (h : ∀ flow ∈ a.allFlows, flow.Representable) :
    (∀ flow ∈ (a.observe s ethernet).allFlows, flow.Representable) ↔ a.Admits s ethernet := by
  unfold StatefulSessionAnalyzer.observe Admits
  cases ethernet.tcp? with
  | none => exact iff_true_intro h
  | some p => exact representable_observeSegment rfl rfl h

end Step

end StatefulSessionAnalyzer

/-! ### Datagrams -/

namespace DatagramFlowAnalyzer

variable {s : DatagramSettings} {a : DatagramFlowAnalyzer} {t : ℚ} {sent : Sent}

/-- The condition on a datagram under which the flows can still be represented: a flow that it begins
takes it, and in a flow that takes it the offset fits in its field. -/
def AdmitsDatagram (s : DatagramSettings) (a : DatagramFlowAnalyzer) (t : ℚ) (sent : Sent) : Prop :=
  match a.live s t sent.source sent.destination with
  | none => a.flows.length < s.maximumTrackedFlows →
    (begun t sent.source sent.destination).Fits s a.storedPayloadBytes sent.payload
  | some (_, flow) => (flow.advance t).Fits s a.storedPayloadBytes sent.payload →
    (flow.advance t).elapsedMicroseconds < 256 ^ 8

/-- The condition on a frame under which the flows can still be represented. -/
def Admits (s : DatagramSettings) (a : DatagramFlowAnalyzer) (t : ℚ) (ethernet : Ethernet) : Prop :=
  (ethernet.ipUdp?.isSome → 0 < s.idleTimeoutSeconds) ∧
    ∀ sent, ethernet.sent? = some sent → a.AdmitsDatagram s t sent

/-- The analyzer can report what it holds. -/
def Reportable (s : DatagramSettings) (a : DatagramFlowAnalyzer) : Prop :=
  a.flows = [] ∧ a.omittedUdpPacketCount = 0 ∨
    0 < s.idleTimeoutSeconds ∧ ∀ flow ∈ a.flows, flow.Representable

theorem Reportable.flows (h : Reportable s a) : ∀ flow ∈ a.flows, flow.Representable := by
  rcases h with ⟨hnil, -⟩ | ⟨-, hflows⟩
  · rw [hnil]
    exact fun flow hflow => absurd hflow List.not_mem_nil
  · exact hflows

/-- A flow without datagrams that takes one can be represented, and one that notes an issue
cannot. -/
theorem representable_receive_begun {total : Nat}
    (hports : sent.source.2 ≠ 0 ∧ sent.destination.2 ≠ 0) :
    ((begun t sent.source sent.destination).receive s total sent.source
      sent.payload).1.Representable ↔
      (begun t sent.source sent.destination).Fits s total sent.payload := by
  by_cases hfits : (begun t sent.source sent.destination).Fits s total sent.payload
  · refine iff_of_true ?_ hfits
    rw [DatagramFlow.receive_of_fits hfits]
    refine ⟨fun item hitem => ?_, hports.1, hports.2, by simp [DatagramFlow.take]⟩
    rw [List.mem_singleton.mp hitem]
    show 0 < 256 ^ 8
    decide
  · refine iff_of_false ?_ hfits
    obtain ⟨value, heq⟩ := DatagramFlow.receive_of_not_fits sent.source hfits
    rw [heq]
    intro hflow
    exact hflow.nonempty (by rw [DatagramFlow.issue_datagrams]; rfl)

/-- A flow that takes a datagram can be represented when the offset fits. -/
theorem representable_receive_advance {flow : DatagramFlow} {total : Nat}
    (hflow : flow.Representable) :
    ((flow.advance t).receive s total sent.source sent.payload).1.Representable ↔
      ((flow.advance t).Fits s total sent.payload →
        (flow.advance t).elapsedMicroseconds < 256 ^ 8) := by
  by_cases hfits : (flow.advance t).Fits s total sent.payload
  · rw [DatagramFlow.receive_of_fits hfits]
    constructor
    · intro h _
      exact h.encodable _ (List.mem_append_right _ (List.mem_singleton_self _))
    · intro h
      refine ⟨fun item hitem => ?_, hflow.initiator, hflow.responder, by simp [DatagramFlow.take]⟩
      rcases List.mem_append.mp hitem with hold | hnew
      · exact hflow.encodable item hold
      · rw [List.mem_singleton.mp hnew]
        exact h hfits
  · refine iff_of_true ?_ fun h => absurd h hfits
    obtain ⟨value, heq⟩ := DatagramFlow.receive_of_not_fits sent.source hfits
    rw [heq]
    refine ⟨?_, ?_, ?_, ?_⟩
    · rw [DatagramFlow.issue_datagrams]
      exact hflow.encodable
    · rw [DatagramFlow.issue_initiator]
      exact hflow.initiator
    · rw [DatagramFlow.issue_responder]
      exact hflow.responder
    · rw [DatagramFlow.issue_datagrams]
      exact hflow.nonempty

theorem representable_observeDatagram (hports : sent.source.2 ≠ 0 ∧ sent.destination.2 ≠ 0)
    (h : ∀ flow ∈ a.flows, flow.Representable) :
    (∀ flow ∈ (a.observeDatagram s t sent.source sent.destination sent.payload).flows,
      flow.Representable) ↔ a.AdmitsDatagram s t sent := by
  unfold AdmitsDatagram
  rcases observeDatagram_cases s a t sent with ⟨hlive, hlimit, heq⟩ | hfiled
  · rw [heq, hlive]
    exact iff_of_true h fun hlt => absurd hlt (by omega)
  · generalize a.observeDatagram s t sent.source sent.destination sent.payload = a' at hfiled
    cases hfiled with
    | live i flow hlive hflow hactive =>
      rw [hlive]
      dsimp only
      rw [← representable_receive_advance (h flow (List.mem_of_getElem? hflow))]
      constructor
      · intro hall
        exact hall _ (List.mem_set (List.getElem?_eq_some_iff.mp hflow).1 _)
      · intro hnew other hother
        rcases List.mem_or_eq_of_mem_set hother with hold | rfl
        · exact h other hold
        · exact hnew
    | begun hlive hlimit =>
      rw [hlive]
      dsimp only
      rw [← representable_receive_begun hports]
      constructor
      · intro hall _
        exact hall _ (List.mem_append_right _ (List.mem_singleton_self _))
      · intro hnew other hother
        rcases List.mem_append.mp hother with hold | hlast
        · exact h other hold
        · rw [List.mem_singleton.mp hlast]
          exact hnew hlimit

/-- A UDP packet leaves a flow or an omission. -/
theorem Filed.flows_ne_nil {a' : DatagramFlowAnalyzer} (h : Filed s a t sent a') :
    a'.flows ≠ [] := by
  cases h with
  | live i flow hlive hflow hactive =>
    intro hnil
    rw [List.set_eq_nil_iff] at hnil
    simp [hnil] at hflow
  | begun hlive hlimit => simp

/-- A frame leaves the analyzer reportable exactly when it is admitted. -/
theorem reportable_observe (ethernet : Ethernet) (h : Reportable s a) :
    Reportable s (a.observe s t ethernet) ↔ a.Admits s t ethernet := by
  unfold Admits
  cases hudp : ethernet.ipUdp? with
  | none =>
    rw [observe_of_not_udp hudp]
    refine iff_of_true h ⟨fun hsome => absurd hsome (by simp), fun sent hsent => ?_⟩
    have hsome := ipUdp?_of_sent hsent
    rw [hudp] at hsome
    exact absurd hsome (by simp)
  | some ip =>
    have hsome : ethernet.ipUdp?.isSome := by
      rw [hudp]
      rfl
    cases hsent : ethernet.sent? with
    | none =>
      rw [observe_of_not_sent hsome hsent]
      constructor
      · rintro (⟨-, homitted⟩ | ⟨hidle, -⟩)
        · exact absurd homitted (Nat.succ_ne_zero _)
        · exact ⟨fun _ => hidle, fun sent hsent => absurd hsent (by simp)⟩
      · rintro ⟨hidle, -⟩
        exact .inr ⟨hidle rfl, h.flows⟩
    | some sent =>
      have hports := Ethernet.ports_of_sent hsent
      rw [observe_of_sent hsent]
      have hstep := representable_observeDatagram (s := s) (t := t) hports h.flows
      have hsomething : ¬((a.observeDatagram s t sent.source sent.destination sent.payload).flows = [] ∧
          (a.observeDatagram s t sent.source sent.destination
            sent.payload).omittedUdpPacketCount = 0) := by
        rintro ⟨hnil, homitted⟩
        rcases observeDatagram_cases s a t sent with ⟨-, -, heq⟩ | hfiled
        · rw [heq] at homitted
          exact absurd homitted (Nat.succ_ne_zero _)
        · exact hfiled.flows_ne_nil hnil
      unfold Reportable
      rw [or_iff_right hsomething, hstep]
      constructor
      · rintro ⟨hidle, hadmits⟩
        exact ⟨fun _ => hidle, fun sent' hsent' => Option.some.inj hsent' ▸ hadmits⟩
      · rintro ⟨hidle, hadmits⟩
        exact ⟨hidle rfl, hadmits sent rfl⟩

end DatagramFlowAnalyzer

/-! ### Captures -/

section Captures

variable (sha256 : Bytes → Digest)

/-- Every packet of a capture meets the conditions of both analyzers when it is observed. -/
def Harmless (s : SessionSettings) (d : DatagramSettings) (packets : List Packet) : Prop :=
  ∀ k packet, packets[k]? = some packet →
    (StatefulSessionAnalyzer.scan s (packets.take k)).Admits s packet.ethernet ∧
    (DatagramFlowAnalyzer.scan d (packets.take k)).Admits d packet.timestamp packet.ethernet

theorem sessions_finish_iff (s : SessionSettings) (packets : List Packet) :
    (∀ k, ∃ result, (StatefulSessionAnalyzer.scan s (packets.take k)).finish sha256 s = .ok result) ↔
      ∀ k packet, packets[k]? = some packet →
        (StatefulSessionAnalyzer.scan s (packets.take k)).Admits s packet.ethernet := by
  simp only [StatefulSessionAnalyzer.finish_ok_iff]
  have hnone : ∀ flow ∈ ({} : StatefulSessionAnalyzer).allFlows, flow.Representable :=
    fun flow hflow => absurd hflow List.not_mem_nil
  exact forall_take_iff (P := fun a => ∀ flow ∈ StatefulSessionAnalyzer.allFlows a, flow.Representable)
    hnone (fun a packet h => StatefulSessionAnalyzer.representable_observe packet.ethernet h) packets

theorem datagrams_finish_iff (d : DatagramSettings) (packets : List Packet) :
    (∀ k, ∃ result, (DatagramFlowAnalyzer.scan d (packets.take k)).finish sha256 d = .ok result) ↔
      ∀ k packet, packets[k]? = some packet →
        (DatagramFlowAnalyzer.scan d (packets.take k)).Admits d packet.timestamp packet.ethernet := by
  simp only [finish_ok_iff]
  have hnone : DatagramFlowAnalyzer.Reportable d {} := .inl ⟨rfl, rfl⟩
  exact forall_take_iff (P := fun a => DatagramFlowAnalyzer.Reportable d a) hnone
    (fun a packet h => DatagramFlowAnalyzer.reportable_observe packet.ethernet h) packets

/-- A client SYN from port 0. -/
def portZeroSyn : Packet where
  timestamp := 0
  size := 54
  ethernet :=
    { src := sampleHardware 1
      dst := sampleHardware 2
      data := .ip ⟨6, sampleHost 1, sampleHost 2, .tcp ⟨0, 80, 1, 2, .empty⟩⟩ }

end Captures

end TrexCli.Capture
