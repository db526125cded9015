import Mathlib.Algebra.Order.BigOperators.Group.List
import Mathlib.Data.List.Infix
import TrexCli.Capture.Bounded

/-!
# Reassembly of sessions

What the exchanges of a reconstructible session are made of: the payloads of a block of the segments
between its endpoints, in the order of the capture, with the sequence numbers of each side one range
that starts after the side's opening segment. A SYN-ACK sets the sequence counter of the server
wherever it comes, so this needs that none moves the counter after the server sent data
(`sessions_sound`).
-/

namespace TrexCli.Capture

/-- A segment, with the side that sent it. -/
abbrev Segment := Side × Tcp

namespace Segment

/-- The segments with a payload. -/
def payloads (segments : List Segment) : List Segment :=
  segments.filter fun segment => !segment.2.data.octets.isEmpty

/-- What a side sent. -/
def sent (side : Side) (segments : List Segment) : List Tcp :=
  (segments.filter fun segment => segment.1 = side).map Prod.snd

/-- The exchanges that the payloads of segments make. -/
def assemble (segments : List Segment) : List Exchange :=
  segments.foldl
    (fun exchanges segment => SessionFlow.extend segment.1 exchanges segment.2.data.octets) []

end Segment

/-- The segment opens the side: the SYN of a client, the SYN-ACK of a server. -/
def Side.opens : Side → Tcp → Bool
  | .client, tcp => tcp.initialSyn
  | .server, tcp => tcp.syn && tcp.ack

/-- The payloads of the segments follow each other without a gap or an overlap, from a sequence number
on. -/
def Contiguous : Nat → List Tcp → Prop
  | _, [] => True
  | start, tcp :: rest => tcp.seq.toNat = start ∧ Contiguous (start + tcp.data.length) rest

/-- The bytes of the exchanges of a side. -/
def sideBytes (side : Side) (exchanges : List Exchange) : Bytes :=
  (exchanges.filter fun exchange => exchange.1 = side).flatMap Prod.snd

open Segment

/-! ### Payloads and exchanges -/

/-- The bytes of segments. -/
def octetsOf (segments : List Tcp) : Nat := (segments.map fun tcp => tcp.data.length).sum

theorem contiguous_append_singleton {start : Nat} {segments : List Tcp} {tcp : Tcp} :
    Contiguous start (segments ++ [tcp]) ↔
      Contiguous start segments ∧ tcp.seq.toNat = start + octetsOf segments := by
  induction segments generalizing start with
  | nil => simp [Contiguous, octetsOf]
  | cons first rest ih =>
    simp only [List.cons_append, Contiguous, ih, octetsOf, List.map_cons, List.sum_cons, and_assoc,
      Nat.add_assoc]

@[simp] theorem sent_append (side : Side) (xs ys : List Segment) :
    sent side (xs ++ ys) = sent side xs ++ sent side ys := by
  simp [sent]

@[simp] theorem sent_singleton_self (side : Side) (tcp : Tcp) : sent side [(side, tcp)] = [tcp] := by
  simp [sent]

theorem sent_singleton_of_ne {side side' : Side} (h : side' ≠ side) (tcp : Tcp) :
    sent side [(side', tcp)] = [] := by
  simp [sent, h]

theorem assemble_append_singleton (segments : List Segment) (segment : Segment) :
    assemble (segments ++ [segment]) =
      SessionFlow.extend segment.1 (assemble segments) segment.2.data.octets := by
  simp [assemble]

theorem extend_ne_nil (side : Side) (exchanges : List Exchange) (payload : Bytes) :
    SessionFlow.extend side exchanges payload ≠ [] := by
  unfold SessionFlow.extend
  split
  · split <;> simp
  · simp

theorem assemble_eq_nil {segments : List Segment} (h : assemble segments = []) : segments = [] := by
  cases segments using List.reverseRecOn with
  | nil => rfl
  | append_singleton segments segment =>
    rw [assemble_append_singleton] at h
    exact absurd h (extend_ne_nil _ _ _)

theorem extend_append_singleton (side : Side) (exchanges : List Exchange) (last : Exchange)
    (payload : Bytes) :
    SessionFlow.extend side (exchanges ++ [last]) payload =
      if last.1 = side then exchanges ++ [(last.1, last.2 ++ payload)]
      else exchanges ++ [last] ++ [(side, payload)] := by
  simp [SessionFlow.extend]

theorem sideBytes_append (side : Side) (xs ys : List Exchange) :
    sideBytes side (xs ++ ys) = sideBytes side xs ++ sideBytes side ys := by
  simp [sideBytes]

theorem sideBytes_singleton (side side' : Side) (payload : Bytes) :
    sideBytes side [(side', payload)] = if side' = side then payload else [] := by
  by_cases h : side' = side
  · simp [sideBytes, h]
  · simp [sideBytes, h]

theorem sideBytes_extend (side side' : Side) (exchanges : List Exchange) (payload : Bytes) :
    sideBytes side (SessionFlow.extend side' exchanges payload) =
      sideBytes side exchanges ++ if side' = side then payload else [] := by
  cases exchanges using List.reverseRecOn with
  | nil => exact sideBytes_singleton side side' payload
  | append_singleton exchanges last =>
    obtain ⟨lastSide, previous⟩ := last
    rw [extend_append_singleton]
    dsimp only
    split
    · next hlast =>
      subst hlast
      simp only [sideBytes_append, sideBytes_singleton, List.append_assoc]
      split <;> rfl
    · simp only [sideBytes_append, sideBytes_singleton]

/-- The bytes of a side are those of its segments, in their order. -/
theorem sideBytes_assemble (side : Side) (segments : List Segment) :
    sideBytes side (assemble segments) = (sent side segments).flatMap fun tcp => tcp.data.octets := by
  induction segments using List.reverseRecOn with
  | nil => rfl
  | append_singleton segments segment ih =>
    obtain ⟨side', tcp⟩ := segment
    rw [assemble_append_singleton, sideBytes_extend, ih, sent_append]
    by_cases hside : side' = side
    · subst hside
      simp
    · simp [sent_singleton_of_ne hside, hside]

/-! ### One session -/

/-- The sequence counter of a side: without it the side sent nothing; with it the side opened, and the
counter is behind the contiguous payloads that it sent since. -/
structure Counter (side : Side) (segments : List Segment) (received : List Tcp) (next : Option Nat) :
    Prop where
  unset : next = none → received = []
  set : ∀ n, next = some n → ∃ opening, (side, opening) ∈ segments ∧ side.opens opening = true ∧
    Contiguous (opening.seq.toNat + 1) received ∧ n = opening.seq.toNat + 1 + octetsOf received

/-- A session without issues after some segments, of which it took some payloads. -/
structure Reassembled (flow : SessionFlow) (segments taken : List Segment) : Prop where
  exchanges : flow.exchanges = assemble taken
  nonempty : ∀ segment ∈ taken, segment.2.data.octets ≠ []
  client : Counter .client segments (sent .client taken) flow.nextClientSequence
  server : Counter .server segments (sent .server taken) flow.nextServerSequence
  serverBytes : flow.serverPayloadBytes = octetsOf (sent .server taken)
  sawSyn : flow.sawSyn = true → flow.nextClientSequence ≠ none
  sawSynAck : flow.sawSynAck = true → flow.nextServerSequence ≠ none

theorem Counter.grow {side : Side} {segments : List Segment} {received : List Tcp} {next : Option Nat}
    (h : Counter side segments received next) (more : List Segment) :
    Counter side (segments ++ more) received next := by
  refine ⟨h.unset, fun n hn => ?_⟩
  obtain ⟨opening, hmem, hopening⟩ := h.set n hn
  exact ⟨opening, List.mem_append_left _ hmem, hopening⟩

/-- A segment opens a side that sent nothing. -/
theorem Counter.opened {side : Side} {segments : List Segment} {tcp : Tcp}
    (hopens : side.opens tcp = true) :
    Counter side (segments ++ [(side, tcp)]) [] (some (tcp.seq.toNat + 1)) := by
  refine ⟨fun h => by simp at h, fun n hn => ?_⟩
  obtain rfl := Option.some.inj hn
  exact ⟨tcp, by simp, hopens, trivial, by simp [octetsOf]⟩

/-- The counter moves behind a payload that begins where it stands. -/
theorem Counter.take {side : Side} {segments : List Segment} {received : List Tcp} {tcp : Tcp}
    (h : Counter side segments received (some tcp.seq.toNat)) :
    Counter side segments (received ++ [tcp]) (some (tcp.seq.toNat + tcp.data.length)) := by
  refine ⟨fun h => by simp at h, fun n hn => ?_⟩
  obtain rfl := Option.some.inj hn
  obtain ⟨opening, hmem, hopens, hcontiguous, hseq⟩ := h.set _ rfl
  refine ⟨opening, hmem, hopens, contiguous_append_singleton.mpr ⟨hcontiguous, hseq⟩, ?_⟩
  simp only [octetsOf, List.map_append, List.sum_append, List.map_singleton, List.sum_singleton] at hseq ⊢
  omega

/-- A side that sent no bytes has no segments with a payload. -/
theorem sent_eq_nil {side : Side} {taken : List Segment}
    (hnonempty : ∀ segment ∈ taken, segment.2.data.octets ≠ []) (h : octetsOf (sent side taken) = 0) :
    sent side taken = [] := by
  rw [List.eq_nil_iff_forall_not_mem]
  intro tcp htcp
  obtain ⟨segment, hsegment, rfl⟩ := List.mem_map.mp htcp
  have hlength := List.sum_eq_zero_iff.mp h _
    (List.mem_map_of_mem (f := fun tcp : Tcp => tcp.data.length) htcp)
  exact hnonempty segment (List.mem_filter.mp hsegment).1 (List.eq_nil_of_length_eq_zero hlength)

namespace SessionFlow

variable {s : SessionSettings} {flow : SessionFlow} {side : Side} {tcp : Tcp} {total : Nat}
  {segments taken : List Segment}

theorem issue_ne_nil (value : String) : (flow.issue value).issues ≠ [] := by
  unfold issue
  split
  · next hmem => exact List.ne_nil_of_mem hmem
  · simp

/-- A SYN-ACK of the server of a session whose server sent data does not move its sequence counter. -/
def KeepsSequence (flow : SessionFlow) (side : Side) (tcp : Tcp) : Prop :=
  flow.issues = [] → side = .server → (tcp.syn && tcp.ack) = true → flow.serverPayloadBytes ≠ 0 →
    flow.nextServerSequence = some (tcp.seq.toNat + 1)

theorem reassembled_handshake (h : flow.issues = [] → Reassembled flow segments taken)
    (hends : tcp.initialSyn = true → flow.exchanges = []) (hkeeps : flow.KeepsSequence side tcp)
    (hissues : (flow.handshake side tcp).issues = []) :
    Reassembled (flow.handshake side tcp) (segments ++ [(side, tcp)]) taken := by
  unfold handshake at hissues ⊢
  dsimp only at hissues ⊢
  split at hissues
  · next hinitial =>
    split at hissues
    · next hside =>
      subst hside
      obtain ⟨hexchanges, hnonempty, hclient, hserver, hbytes, hsyn, hsynAck⟩ := h hissues
      have hnil : taken = [] := assemble_eq_nil (hexchanges.symm.trans (hends hinitial))
      subst hnil
      rw [if_pos hinitial, if_pos rfl]
      exact ⟨hexchanges, hnonempty, .opened hinitial, hserver.grow _, hbytes, by simp, hsynAck⟩
    · exact absurd hissues (issue_ne_nil _)
  · next hinitial =>
    split at hissues
    · next hsynAck =>
      split at hissues
      · exact absurd hissues (issue_ne_nil _)
      · next hside =>
        have hserverSide : side = .server := by
          cases side with
          | client => exact absurd rfl hside
          | server => rfl
        subst hserverSide
        obtain ⟨hexchanges, hnonempty, hclient, hserver, hbytes, hsyn, hsaw⟩ := h hissues
        rw [if_neg hinitial, if_pos hsynAck, if_neg hside]
        refine ⟨hexchanges, hnonempty, hclient.grow _, ?_, hbytes, hsyn, by simp⟩
        -- the counter is set for the first time, or to where it stands
        by_cases hzero : flow.serverPayloadBytes = 0
        · rw [sent_eq_nil hnonempty (hbytes.symm.trans hzero)]
          exact .opened hsynAck
        · show Counter _ _ _ (some (tcp.seq.toNat + 1))
          rw [← hkeeps hissues rfl hsynAck hzero]
          exact hserver.grow _
    · next hother =>
      obtain ⟨hexchanges, hnonempty, hclient, hserver, hbytes, hsyn, hsaw⟩ := h hissues
      rw [if_neg hinitial, if_neg hother]
      exact ⟨hexchanges, hnonempty, hclient.grow _, hserver.grow _, hbytes, hsyn, hsaw⟩

/-- A payload of the client without an issue begins where the counter stands, and moves it. -/
theorem sequence_client (h : (flow.sequence .client tcp).issues = []) :
    flow.nextClientSequence = some tcp.seq.toNat ∧ flow.sequence .client tcp = { flow with
      clientPayloadBytes := flow.clientPayloadBytes + tcp.data.length
      nextClientSequence := some (tcp.seq.toNat + tcp.data.length) } := by
  unfold sequence at h ⊢
  dsimp only at h ⊢
  split at h
  · exact absurd h (issue_ne_nil _)
  · next expected hexpected =>
    split at h
    · exact absurd h (issue_ne_nil _)
    · split at h
      · exact absurd h (issue_ne_nil _)
      · next hnotBelow hnotAbove =>
        obtain rfl : expected = tcp.seq.toNat := by omega
        simp [hexpected]

/-- A payload of the server without an issue begins where the counter stands, and moves it. -/
theorem sequence_server (h : (flow.sequence .server tcp).issues = []) :
    flow.nextServerSequence = some tcp.seq.toNat ∧ flow.sequence .server tcp = { flow with
      serverPayloadBytes := flow.serverPayloadBytes + tcp.data.length
      nextServerSequence := some (tcp.seq.toNat + tcp.data.length) } := by
  unfold sequence at h ⊢
  dsimp only at h ⊢
  split at h
  · exact absurd h (issue_ne_nil _)
  · next expected hexpected =>
    split at h
    · exact absurd h (issue_ne_nil _)
    · split at h
      · exact absurd h (issue_ne_nil _)
      · next hnotBelow hnotAbove =>
        obtain rfl : expected = tcp.seq.toNat := by omega
        simp [hexpected]

/-- A payload is stored when that is no issue. -/
theorem store_eq (h : (flow.store s side tcp total).1.issues = []) :
    (flow.store s side tcp total).1 = { flow with
      storedPayloadBytes := flow.storedPayloadBytes + tcp.data.length
      exchanges := extend side flow.exchanges tcp.data.octets } := by
  unfold store at h ⊢
  split at h
  · exact absurd h (issue_ne_nil _)
  · next hsession =>
    split at h
    · exact absurd h (issue_ne_nil _)
    · next htotal => rw [if_neg hsession, if_neg htotal]

/-- The issues of a session stay while a payload is received. -/
theorem issues_of_sequence_store
    (h : ((flow.sequence side tcp).store s side tcp total).1.issues = []) :
    (flow.sequence side tcp).issues = [] ∧ flow.issues = [] := by
  have hsequence : (flow.sequence side tcp).issues = [] := by
    rw [store_eq h] at h
    exact h
  refine ⟨hsequence, ?_⟩
  cases side with
  | client =>
    rw [(sequence_client hsequence).2] at hsequence
    exact hsequence
  | server =>
    rw [(sequence_server hsequence).2] at hsequence
    exact hsequence

theorem reassembled_sequence_store (h : Reassembled flow segments taken)
    (hpayload : tcp.data.octets ≠ [])
    (hissues : ((flow.sequence side tcp).store s side tcp total).1.issues = []) :
    Reassembled ((flow.sequence side tcp).store s side tcp total).1 segments
      (taken ++ [(side, tcp)]) := by
  have hsequence := (issues_of_sequence_store hissues).1
  obtain ⟨hexchanges, hnonempty, hclient, hserver, hbytes, hsyn, hsaw⟩ := h
  have hnonempty' : ∀ segment ∈ taken ++ [(side, tcp)], segment.2.data.octets ≠ [] := by
    intro segment hsegment
    rcases List.mem_append.mp hsegment with hsegment | hsegment
    · exact hnonempty segment hsegment
    · obtain rfl := List.mem_singleton.mp hsegment
      exact hpayload
  have hexchanges' : extend side flow.exchanges tcp.data.octets =
      assemble (taken ++ [(side, tcp)]) := by
    rw [assemble_append_singleton, ← hexchanges]
  rw [store_eq hissues]
  cases side with
  | client =>
    obtain ⟨hnext, heq⟩ := sequence_client hsequence
    rw [hnext] at hclient
    rw [heq]
    refine ⟨hexchanges', hnonempty', ?_, ?_, ?_, by simp, hsaw⟩
    · rw [sent_append, sent_singleton_self]
      exact hclient.take
    · rw [sent_append, sent_singleton_of_ne (by decide), List.append_nil]
      exact hserver
    · rw [sent_append, sent_singleton_of_ne (by decide), List.append_nil]
      exact hbytes
  | server =>
    obtain ⟨hnext, heq⟩ := sequence_server hsequence
    rw [hnext] at hserver
    rw [heq]
    refine ⟨hexchanges', hnonempty', ?_, ?_, ?_, hsyn, by simp⟩
    · rw [sent_append, sent_singleton_of_ne (by decide), List.append_nil]
      exact hclient
    · rw [sent_append, sent_singleton_self]
      exact hserver.take
    · rw [sent_append, sent_singleton_self]
      show flow.serverPayloadBytes + tcp.data.length = _
      simp [hbytes, octetsOf]

/-- What a session without issues is made of, after a segment more. -/
theorem reassembled_receive (h : flow.issues = [] → Reassembled flow segments (payloads segments))
    (hends : tcp.initialSyn = true → flow.exchanges = []) (hkeeps : flow.KeepsSequence side tcp)
    (hissues : (flow.receive s side tcp total).1.issues = []) :
    Reassembled (flow.receive s side tcp total).1 (segments ++ [(side, tcp)])
      (payloads (segments ++ [(side, tcp)])) := by
  unfold receive at hissues ⊢
  dsimp only at hissues ⊢
  split at hissues
  · next hempty =>
    have htaken : payloads (segments ++ [(side, tcp)]) = payloads segments := by
      simp [payloads, hempty]
    rw [if_pos hempty, htaken]
    exact reassembled_handshake h hends hkeeps hissues
  · next hpayload =>
    have htaken : payloads (segments ++ [(side, tcp)]) = payloads segments ++ [(side, tcp)] := by
      simp [payloads, hpayload]
    rw [if_neg hpayload, htaken]
    have hshake := (issues_of_sequence_store hissues).2
    exact reassembled_sequence_store (reassembled_handshake h hends hkeeps hshake) hpayload hissues

/-- A new session that begins with a SYN of its client took nothing yet. -/
theorem reassembled_begun {source destination : Endpoint} {generation : Nat} {initialSyn : Bool}
    (h : (StatefulSessionAnalyzer.begun source destination generation initialSyn).issues = []) :
    Reassembled (StatefulSessionAnalyzer.begun source destination generation initialSyn) []
      (payloads []) := by
  unfold StatefulSessionAnalyzer.begun at h ⊢
  dsimp only at h ⊢
  split at h
  · next hinitial =>
    rw [if_pos hinitial]
    exact ⟨rfl, by simp [payloads], ⟨fun _ => rfl, by simp⟩, ⟨fun _ => rfl, by simp⟩, rfl, by simp,
      by simp⟩
  · exact absurd h (issue_ne_nil _)

/-- The key of a session. -/
def key (flow : SessionFlow) : Endpoint × Endpoint := flowKey flow.client flow.server

/-- Segments with their sources, by the sides of a session. -/
def sided (flow : SessionFlow) (segments : List (Endpoint × Tcp)) : List Segment :=
  segments.map fun segment => (flow.direction segment.1, segment.2)

/-- The session was made of the segments. -/
def History (flow : SessionFlow) (segments : List (Endpoint × Tcp)) : Prop :=
  flow.issues = [] → Reassembled flow (flow.sided segments) (payloads (flow.sided segments))

/-- The session goes on with a segment from `source`. -/
theorem History.receive {source : Endpoint} {segments : List (Endpoint × Tcp)}
    (h : flow.History segments) (hends : tcp.initialSyn = true → flow.exchanges = [])
    (hkeeps : flow.KeepsSequence (flow.direction source) tcp) :
    (flow.receive s (flow.direction source) tcp total).1.History (segments ++ [(source, tcp)]) := by
  intro hissues
  have hreceived : Received s flow (flow.direction source) tcp total
      (flow.receive s (flow.direction source) tcp total).1 := receive_received
  have hdirection : ∀ e, (flow.receive s (flow.direction source) tcp total).1.direction e =
      flow.direction e := by
    intro e
    unfold direction
    exact congrArg (fun client => if e = client then Side.client else .server) hreceived.client
  have hsided : (flow.receive s (flow.direction source) tcp total).1.sided (segments ++ [(source, tcp)]) =
      flow.sided segments ++ [(flow.direction source, tcp)] := by
    simp [sided, hdirection]
  rw [hsided]
  exact reassembled_receive h hends hkeeps hissues

end SessionFlow

/-! ### Whole captures -/

/-- The segments of a capture between the endpoints of a key, with their sources. -/
def segmentsOf (key : Endpoint × Endpoint) (packets : List Packet) : List (Endpoint × Tcp) :=
  packets.filterMap fun packet => packet.ethernet.tcp?.bind fun (ip, tcp) =>
    if flowKey (ip.src, tcp.sport) (ip.dst, tcp.dport) = key then some ((ip.src, tcp.sport), tcp)
    else none

/-- A packet of a capture is no SYN-ACK that moves the sequence counter of a server that sent data. -/
def KeepsSequence (a : StatefulSessionAnalyzer) (packet : Packet) : Prop :=
  ∀ ip tcp flow, packet.ethernet.tcp? = some (ip, tcp) →
    a.flow? (flowKey (ip.src, tcp.sport) (ip.dst, tcp.dport)) = some flow →
    flow.KeepsSequence (flow.direction (ip.src, tcp.sport)) tcp

/-- Every session of the analyzer has a block of the segments between its endpoints behind it, a
current session the last ones. -/
structure Logged (packets : List Packet) (a : StatefulSessionAnalyzer) : Prop where
  current : ∀ item ∈ a.flows, item.1 = item.2.key ∧
    ∃ segments, segments <:+ segmentsOf item.1 packets ∧ item.2.History segments
  completed : ∀ flow ∈ a.completedFlows,
    ∃ segments, segments <:+: segmentsOf flow.key packets ∧ flow.History segments

section Scan

open StatefulSessionAnalyzer

variable {s : SessionSettings} {a : StatefulSessionAnalyzer} {packets : List Packet} {packet : Packet}
  {ip : Ip} {tcp : Tcp} {generation : Nat}

theorem segmentsOf_append (key : Endpoint × Endpoint) (packets more : List Packet) :
    segmentsOf key (packets ++ more) = segmentsOf key packets ++ segmentsOf key more :=
  List.filterMap_append ..

theorem segmentsOf_singleton (hpacket : packet.ethernet.tcp? = some (ip, tcp))
    (key : Endpoint × Endpoint) :
    segmentsOf key [packet] =
      if flowKey (ip.src, tcp.sport) (ip.dst, tcp.dport) = key then [((ip.src, tcp.sport), tcp)]
      else [] := by
  simp only [segmentsOf, List.filterMap_cons, List.filterMap_nil, hpacket, Option.bind_some]
  split
  · next h =>
    split at h <;> simp_all
  · next h =>
    split at h <;> simp_all

/-- The sessions whose key is not that of the packet are as before. -/
theorem Logged.skip (h : Logged packets a) (hpacket : packet.ethernet.tcp? = some (ip, tcp))
    (hkey : ∀ item ∈ a.flows, item.1 ≠ flowKey (ip.src, tcp.sport) (ip.dst, tcp.dport)) :
    Logged (packets ++ [packet]) a := by
  refine ⟨fun item hitem => ?_, fun flow hflow => ?_⟩
  · obtain ⟨heq, segments, hsuffix, hhistory⟩ := h.current item hitem
    refine ⟨heq, segments, ?_, hhistory⟩
    rw [segmentsOf_append, segmentsOf_singleton hpacket, if_neg fun hk => hkey item hitem hk.symm,
      List.append_nil]
    exact hsuffix
  · obtain ⟨segments, hinfix, hhistory⟩ := h.completed flow hflow
    rw [segmentsOf_append]
    exact ⟨segments, hinfix.trans (List.prefix_append _ _).isInfix, hhistory⟩

/-- A packet that is no segment changes nothing. -/
theorem Logged.pass (h : Logged packets a) (hpacket : packet.ethernet.tcp? = none) :
    Logged (packets ++ [packet]) a := by
  have hnone : ∀ key, segmentsOf key (packets ++ [packet]) = segmentsOf key packets := by
    intro key
    rw [segmentsOf_append]
    simp [segmentsOf, hpacket]
  exact ⟨fun item hitem => by rw [hnone]; exact h.current item hitem,
    fun flow hflow => by rw [hnone]; exact h.completed flow hflow⟩

/-- A session is completed. -/
theorem Logged.complete (h : Logged packets a) {key : Endpoint × Endpoint} {flow : SessionFlow}
    (hflow : a.flow? key = some flow) : Logged packets (a.complete key flow) := by
  refine ⟨fun item hitem => h.current item (List.mem_filter.mp hitem).1, fun flow' hflow' => ?_⟩
  rcases List.mem_append.mp hflow' with hflow' | hflow'
  · exact h.completed flow' hflow'
  · obtain rfl := List.mem_singleton.mp hflow'
    obtain ⟨hkey, segments, hsuffix, hhistory⟩ := h.current _ (mem_of_flow? hflow)
    exact ⟨segments, hkey ▸ hsuffix.isInfix, hhistory⟩

theorem begun_eq {source destination : Endpoint} {initialSyn : Bool} :
    (begun source destination generation initialSyn).client = source ∧
      (begun source destination generation initialSyn).server = destination ∧
      (begun source destination generation initialSyn).exchanges = [] ∧
      (begun source destination generation initialSyn).serverPayloadBytes = 0 := by
  unfold begun
  dsimp only
  split
  · exact ⟨rfl, rfl, rfl, rfl⟩
  · simp [SessionFlow.issue]

/-- A session is begun with the packet. -/
theorem Logged.begin (h : Logged (packets ++ [packet]) a)
    (hpacket : packet.ethernet.tcp? = some (ip, tcp)) :
    Logged (packets ++ [packet])
      (a.begin s (ip.src, tcp.sport) (ip.dst, tcp.dport) generation tcp) := by
  unfold StatefulSessionAnalyzer.begin
  split
  · exact ⟨h.current, h.completed⟩
  · refine ⟨fun item hitem => ?_, h.completed⟩
    rcases List.mem_append.mp hitem with hitem | hitem
    · exact h.current item hitem
    · obtain rfl := List.mem_singleton.mp hitem
      obtain ⟨hclient, hserver, hexchanges, hbytes⟩ := @begun_eq generation (ip.src, tcp.sport)
        (ip.dst, tcp.dport) tcp.initialSyn
      generalize hbegun : begun (ip.src, tcp.sport) (ip.dst, tcp.dport) generation tcp.initialSyn = flow
        at hclient hserver hexchanges hbytes
      have hreceived : SessionFlow.Received s flow (flow.direction (ip.src, tcp.sport)) tcp
          a.storedPayloadBytes
          (flow.receive s (flow.direction (ip.src, tcp.sport)) tcp a.storedPayloadBytes).1 :=
        SessionFlow.receive_received
      refine ⟨?_, [((ip.src, tcp.sport), tcp)], ?_, ?_⟩
      · show flowKey _ _ = flowKey _ _
        rw [hreceived.client, hreceived.server, hclient, hserver]
      · rw [segmentsOf_append, segmentsOf_singleton hpacket, if_pos rfl]
        exact List.suffix_append _ _
      · have hempty : flow.History [] := by
          intro hissues
          rw [← hbegun] at hissues ⊢
          exact SessionFlow.reassembled_begun hissues
        exact hempty.receive (fun _ => hexchanges) fun _ _ _ hne => absurd hbytes hne

/-- A current session goes on with the packet. -/
theorem Logged.receive (h : Logged packets a) (hpacket : packet.ethernet.tcp? = some (ip, tcp))
    {flow : SessionFlow}
    (hflow : a.flow? (flowKey (ip.src, tcp.sport) (ip.dst, tcp.dport)) = some flow)
    (hends : flow.ends tcp = false)
    (hkeeps : flow.KeepsSequence (flow.direction (ip.src, tcp.sport)) tcp) {total : Nat} :
    Logged (packets ++ [packet]) { a with
      flows := a.flows.map fun item =>
        if item.1 = flowKey (ip.src, tcp.sport) (ip.dst, tcp.dport) then
          (item.1, (flow.receive s (flow.direction (ip.src, tcp.sport)) tcp a.storedPayloadBytes).1)
        else item
      storedPayloadBytes := total } := by
  have hreceived : SessionFlow.Received s flow (flow.direction (ip.src, tcp.sport)) tcp
      a.storedPayloadBytes
      (flow.receive s (flow.direction (ip.src, tcp.sport)) tcp a.storedPayloadBytes).1 :=
    SessionFlow.receive_received
  refine ⟨fun item hitem => ?_, fun flow' hflow' => ?_⟩
  · obtain ⟨before, hbefore, rfl⟩ := List.mem_map.mp hitem
    split
    · next hkey =>
      obtain ⟨hflowKey, segments, hsuffix, hhistory⟩ := h.current _ (mem_of_flow? hflow)
      refine ⟨?_, segments ++ [((ip.src, tcp.sport), tcp)], ?_, ?_⟩
      · show before.1 = flowKey _ _
        rw [hreceived.client, hreceived.server, hkey]
        exact hflowKey
      · show _ <:+ segmentsOf before.1 _
        rw [hkey, segmentsOf_append, segmentsOf_singleton hpacket, if_pos rfl]
        obtain ⟨front, hfront⟩ := hsuffix
        exact ⟨front, by rw [← hfront, List.append_assoc]⟩
      · refine hhistory.receive (fun hinitial => ?_) hkeeps
        simp only [SessionFlow.ends, hinitial, Bool.true_and, Bool.or_eq_false_iff] at hends
        simpa using hends.1.2
    · next hkey =>
      obtain ⟨heq, segments, hsuffix, hhistory⟩ := h.current before hbefore
      refine ⟨heq, segments, ?_, hhistory⟩
      rw [segmentsOf_append, segmentsOf_singleton hpacket, if_neg fun hk => hkey hk.symm,
        List.append_nil]
      exact hsuffix
  · obtain ⟨segments, hinfix, hhistory⟩ := h.completed flow' hflow'
    rw [segmentsOf_append]
    exact ⟨segments, hinfix.trans (List.prefix_append _ _).isInfix, hhistory⟩

/-- What one packet does to the sessions. -/
theorem Logged.observe (h : Logged packets a) (hkeeps : KeepsSequence a packet) :
    Logged (packets ++ [packet]) (a.observe s packet.ethernet) := by
  unfold StatefulSessionAnalyzer.observe
  cases hpacket : packet.ethernet.tcp? with
  | none => exact h.pass hpacket
  | some header =>
    obtain ⟨ip, tcp⟩ := header
    dsimp only
    unfold observeSegment
    dsimp only
    cases hflow : a.flow? (flowKey (ip.src, tcp.sport) (ip.dst, tcp.dport)) with
    | none =>
      refine (h.skip hpacket fun item hitem hkey => ?_).begin hpacket
      simp only [flow?, Option.map_eq_none_iff, List.find?_eq_none] at hflow
      exact hflow item hitem (by simpa using hkey)
    | some flow =>
      dsimp only
      by_cases hends : flow.ends tcp = true
      · rw [if_pos hends]
        refine ((h.complete hflow).skip hpacket fun item hitem => ?_).begin hpacket
        simpa using (List.mem_filter.mp hitem).2
      · rw [if_neg hends]
        exact h.receive hpacket hflow (by simpa using hends) (hkeeps ip tcp flow hpacket hflow)

/-- A capture in which no packet moves the sequence counter of a server that sent data. -/
theorem logged_scan (s : SessionSettings) (packets : List Packet)
    (h : ∀ before packet after, packets = before ++ packet :: after →
      KeepsSequence (scan s before) packet) : Logged packets (scan s packets) := by
  induction packets using List.reverseRecOn with
  | nil => exact ⟨by simp [scan], by simp [scan]⟩
  | append_singleton packets packet ih =>
    rw [scan_append_singleton]
    refine (ih fun before packet' after heq => ?_).observe (h packets packet [] rfl)
    exact h before packet' (after ++ [packet]) (by rw [heq]; simp)

end Scan

/-! ### Templates -/

/-- `SessionTemplate` -/
structure SessionTemplate where
  id : Nat
  digest : Digest
  templateDigest : Digest
  exchanges : List Exchange

/-- What `template` raises. -/
inductive TemplateError where
  | analysis (error : AnalysisError)
  | notReconstructible (issues : List String)
  | missing (sessionId : Nat)

/-- The loop of `template`. -/
def templateFrom (sha256 : Bytes → Digest) (sessionId : Nat) :
    List SessionFlow → Except TemplateError SessionTemplate
  | [] => .error (.missing sessionId)
  | flow :: rest =>
    match flow.session sha256 with
    | .error e => .error (.analysis e)
    | .ok session =>
      if session.id = sessionId then
        if session.reconstructible then
          match flow.templateDigest sha256 with
          | .error e => .error (.analysis e)
          | .ok digest => .ok ⟨session.id, session.digest, digest, flow.exchanges⟩
        else .error (.notReconstructible session.issues)
      else templateFrom sha256 sessionId rest

/-- `template` -/
def StatefulSessionAnalyzer.template (sha256 : Bytes → Digest) (a : StatefulSessionAnalyzer)
    (sessionId : Nat) : Except TemplateError SessionTemplate :=
  templateFrom sha256 sessionId a.allFlows

/-- A template has the exchanges of a reconstructible session. -/
theorem templateFrom_ok {sha256 : Bytes → Digest} {sessionId : Nat} {flows : List SessionFlow}
    {template : SessionTemplate} (h : templateFrom sha256 sessionId flows = .ok template) :
    ∃ flow ∈ flows, ∃ session, flow.session sha256 = .ok session ∧ session.reconstructible = true ∧
      template.exchanges = flow.exchanges := by
  induction flows with
  | nil => simp [templateFrom] at h
  | cons flow rest ih =>
    unfold templateFrom at h
    split at h
    · simp at h
    · next session hsession =>
      split at h
      · split at h
        · next hreconstructible =>
          split at h
          · simp at h
          · obtain rfl := Except.ok.inj h
            exact ⟨flow, List.mem_cons_self, session, hsession, hreconstructible, rfl⟩
        · simp at h
      · obtain ⟨flow', hflow', hrest⟩ := ih h
        exact ⟨flow', List.mem_cons_of_mem _ hflow', hrest⟩

/-! ### Sound sessions -/

/-- The exchanges are made of segments: of all their payloads in order, where those of each side are one
range of sequence numbers that starts after the side's opening segment. -/
structure MadeOf (exchanges : List Exchange) (segments : List Segment) : Prop where
  order : exchanges = assemble (payloads segments)
  range : ∀ side : Side, ∃ opening, (side, opening) ∈ segments ∧ side.opens opening = true ∧
    Contiguous (opening.seq.toNat + 1) (sent side (payloads segments))
  bytes : ∀ side, sideBytes side exchanges =
    (sent side (payloads segments)).flatMap fun tcp => tcp.data.octets

/-- The exchanges of a session are made of a block of the segments between its endpoints. -/
def SoundSession (packets : List Packet) (flow : SessionFlow) : Prop :=
  ∃ segments, segments <:+: segmentsOf flow.key packets ∧ MadeOf flow.exchanges (flow.sided segments)

theorem SessionFlow.History.madeOf {flow : SessionFlow} {segments : List (Endpoint × Tcp)}
    (h : flow.History segments) (hissues : flow.allIssues = []) :
    MadeOf flow.exchanges (flow.sided segments) := by
  simp only [SessionFlow.allIssues, List.append_eq_nil_iff, ite_eq_left_iff, List.cons_ne_nil,
    imp_false, not_not] at hissues
  obtain ⟨⟨⟨hnone, hsyn⟩, hsynAck⟩, -⟩ := hissues
  obtain ⟨hexchanges, -, hclient, hserver, -, hsawSyn, hsawSynAck⟩ := h hnone
  refine ⟨hexchanges, fun side => ?_, fun side => ?_⟩
  · cases side with
    | client =>
      obtain ⟨n, hn⟩ := Option.ne_none_iff_exists'.mp (hsawSyn hsyn)
      obtain ⟨opening, hmem, hopens, hcontiguous, -⟩ := hclient.set n hn
      exact ⟨opening, hmem, hopens, hcontiguous⟩
    | server =>
      obtain ⟨n, hn⟩ := Option.ne_none_iff_exists'.mp (hsawSynAck hsynAck)
      obtain ⟨opening, hmem, hopens, hcontiguous, -⟩ := hserver.set n hn
      exact ⟨opening, hmem, hopens, hcontiguous⟩
  · rw [hexchanges, sideBytes_assemble]

theorem SessionFlow.allIssues_of_session {sha256 : Bytes → Digest} {flow : SessionFlow}
    {session : CapturedSessionAnalysis} (h : flow.session sha256 = .ok session) :
    session.reconstructible = flow.allIssues.isEmpty := by
  simp only [SessionFlow.session, bind_eq_ok, validated_eq_ok] at h
  obtain ⟨_, -, _, -, _, -, _, rfl⟩ := h
  rfl

/-- In a capture in which no SYN-ACK moves the sequence counter of a server that sent data, every
session that is reconstructible is sound, and so is every template that is taken of one. -/
theorem sessions_sound (sha256 : Bytes → Digest) (s : SessionSettings) (packets : List Packet)
    (h : ∀ before packet after, packets = before ++ packet :: after →
      KeepsSequence (StatefulSessionAnalyzer.scan s before) packet) :
    (∀ flow ∈ (StatefulSessionAnalyzer.scan s packets).allFlows, ∀ session,
      flow.session sha256 = .ok session → session.reconstructible = true → SoundSession packets flow) ∧
    ∀ sessionId template,
      (StatefulSessionAnalyzer.scan s packets).template sha256 sessionId = .ok template →
        ∃ flow ∈ (StatefulSessionAnalyzer.scan s packets).allFlows, SoundSession packets flow ∧
          template.exchanges = flow.exchanges := by
  have hlogged := logged_scan s packets h
  have hsound : ∀ flow ∈ (StatefulSessionAnalyzer.scan s packets).allFlows, ∀ session,
      flow.session sha256 = .ok session → session.reconstructible = true → SoundSession packets flow := by
    intro flow hflow session hsession hreconstructible
    rw [SessionFlow.allIssues_of_session hsession, List.isEmpty_iff] at hreconstructible
    rcases StatefulSessionAnalyzer.mem_allFlows.mp hflow with hcompleted | ⟨key, hcurrent⟩
    · obtain ⟨segments, hinfix, hhistory⟩ := hlogged.completed flow hcompleted
      exact ⟨segments, hinfix, hhistory.madeOf hreconstructible⟩
    · obtain ⟨hkey, segments, hsuffix, hhistory⟩ := hlogged.current _ hcurrent
      exact ⟨segments, hkey ▸ hsuffix.isInfix, hhistory.madeOf hreconstructible⟩
  refine ⟨hsound, fun sessionId template htemplate => ?_⟩
  obtain ⟨flow, hflow, session, hsession, hreconstructible, hexchanges⟩ := templateFrom_ok htemplate
  exact ⟨flow, hflow, hsound flow hflow session hsession hreconstructible, hexchanges⟩

/-- A segment from port 40000 of the first host to port 80 of the second. -/
def toServer (seq : UInt32) (flags : UInt16) (data : Payload) : Packet where
  timestamp := 0
  size := 60
  ethernet :=
    { src := sampleHardware 1
      dst := sampleHardware 2
      data := .ip ⟨6, sampleHost 1, sampleHost 2, .tcp ⟨40000, 80, seq, flags, data⟩⟩ }

/-- A segment in the other direction. -/
def toClient (seq : UInt32) (flags : UInt16) (data : Payload) : Packet where
  timestamp := 0
  size := 60
  ethernet :=
    { src := sampleHardware 2
      dst := sampleHardware 1
      data := .ip ⟨6, sampleHost 2, sampleHost 1, .tcp ⟨80, 40000, seq, flags, data⟩⟩ }

/-- A byte of data. -/
def oneByte : Payload := ⟨[65], by decide⟩

/-- A session with a question and an answer. -/
def shortSession : List Packet :=
  [toServer 1000 2 .empty, toClient 2000 18 .empty, toServer 1001 24 oneByte, toClient 2001 24 oneByte]

/-- Sessions whose server sent nothing keep their sequence. -/
theorem keepsSequence_of_silent {a : StatefulSessionAnalyzer}
    (h : ∀ item ∈ a.flows, item.2.serverPayloadBytes = 0) (packet : Packet) : KeepsSequence a packet :=
  fun _ _ _ _ hflow _ _ _ hne => absurd (h _ (StatefulSessionAnalyzer.mem_of_flow? hflow)) hne

/-- The session between the two hosts is representable, whatever was exchanged of little data. -/
theorem representable_sample {flow : SessionFlow} (hclient : flow.client = (sampleHost 1, 40000))
    (hserver : flow.server = (sampleHost 2, 80)) (hgeneration : flow.generation = 0)
    (hcount : 1 ≤ flow.packetCount)
    (hexchanges : ∀ exchange ∈ flow.exchanges, exchange.2.length < 256 ^ 8) :
    flow.Representable := by
  refine ⟨?_, ?_, ?_, hcount, hexchanges⟩
  · rw [hclient]
    decide
  · rw [hserver]
    decide
  · rw [hgeneration]
    decide

theorem sessions_sound_short :
    ∃ flow ∈ (StatefulSessionAnalyzer.scan {} shortSession).allFlows,
      flow.exchanges = [(.client, [65]), (.server, [65])] ∧ SoundSession shortSession flow := by
  have hscan : ∃ flow ∈ (StatefulSessionAnalyzer.scan {} shortSession).allFlows,
      flow.allIssues = [] ∧ flow.exchanges = [(Side.client, [65]), (Side.server, [65])] ∧
      flow.client = (sampleHost 1, 40000) ∧ flow.server = (sampleHost 2, 80) ∧ flow.generation = 0 ∧
      1 ≤ flow.packetCount := by decide +kernel
  obtain ⟨flow, hflow, hissues, hexchanges, hclient, hserver, hgeneration, hcount⟩ := hscan
  obtain ⟨session, hsession⟩ := SessionFlow.session_ok_iff.mpr
    (representable_sample hclient hserver hgeneration hcount (by rw [hexchanges]; decide))
  have hreconstructible : session.reconstructible = true := by
    rw [SessionFlow.allIssues_of_session hsession, hissues]
    rfl
  refine ⟨flow, hflow, hexchanges, ?_⟩
  refine (sessions_sound sampleHash {} shortSession fun before packet after heq => ?_).1 flow hflow
    session hsession hreconstructible
  have hsilent : ∀ n < 4, ∀ item ∈ (StatefulSessionAnalyzer.scan {} (shortSession.take n)).flows,
      item.2.serverPayloadBytes = 0 := by decide +kernel
  have hbefore : before = shortSession.take before.length := by rw [heq, List.take_left]
  have hlength : before.length < 4 := by
    have htotal : shortSession.length = 4 := rfl
    rw [heq, List.length_append, List.length_cons] at htotal
    omega
  rw [hbefore]
  exact keepsSequence_of_silent (hsilent _ hlength) packet

/-- A session whose SYN-ACK comes again after the answer, and the answer with it. -/
def repeatedAnswer : List Packet :=
  [toServer 1000 2 .empty, toClient 2000 18 .empty, toClient 2001 24 oneByte, toClient 2000 18 .empty,
    toClient 2001 24 oneByte]

/-- The answer is in the exchanges twice, in a session without issues. -/
theorem repeated_answer_counted_twice :
    ∃ flow ∈ (StatefulSessionAnalyzer.scan {} repeatedAnswer).allFlows, ∃ session,
      flow.session sampleHash = .ok session ∧ session.reconstructible = true ∧
        flow.exchanges = [(.server, [65, 65])] ∧ ¬SoundSession repeatedAnswer flow := by
  have hscan : ∃ flow ∈ (StatefulSessionAnalyzer.scan {} repeatedAnswer).allFlows,
      flow.allIssues = [] ∧ flow.exchanges = [(Side.server, [65, 65])] ∧
      flow.client = (sampleHost 1, 40000) ∧ flow.server = (sampleHost 2, 80) ∧ flow.generation = 0 ∧
      1 ≤ flow.packetCount := by decide +kernel
  obtain ⟨flow, hflow, hissues, hexchanges, hclient, hserver, hgeneration, hcount⟩ := hscan
  obtain ⟨session, hsession⟩ := SessionFlow.session_ok_iff.mpr
    (representable_sample hclient hserver hgeneration hcount (by rw [hexchanges]; decide))
  refine ⟨flow, hflow, session, hsession, ?_, hexchanges, fun hsound => ?_⟩
  · rw [SessionFlow.allIssues_of_session hsession, hissues]
    rfl
  · obtain ⟨segments, hinfix, hmade⟩ := hsound
    have hkey : flow.key = flowKey (sampleHost 1, 40000) (sampleHost 2, 80) := by
      rw [SessionFlow.key, hclient, hserver]
    have hpayload : ∀ segment ∈ segmentsOf (flowKey (sampleHost 1, 40000) (sampleHost 2, 80))
        repeatedAnswer, segment.2.data.octets ≠ [] →
          segment.2.seq.toNat = 2001 ∧ segment.2.data.octets = [65] := by decide +kernel
    obtain ⟨opening, -, -, hcontiguous⟩ := hmade.range .server
    have hbytes := hmade.bytes .server
    rw [hexchanges] at hbytes
    have hall : ∀ tcp ∈ sent .server (payloads (flow.sided segments)),
        tcp.seq.toNat = 2001 ∧ tcp.data.octets = [65] := by
      intro tcp htcp
      obtain ⟨segment, hsegment, rfl⟩ := List.mem_map.mp htcp
      obtain ⟨hsided, hnonempty⟩ := List.mem_filter.mp (List.mem_filter.mp hsegment).1
      obtain ⟨sourced, hsourced, rfl⟩ := List.mem_map.mp hsided
      exact hpayload sourced (hkey ▸ hinfix.subset hsourced) (by simpa using hnonempty)
    generalize sent .server (payloads (flow.sided segments)) = answers at hcontiguous hbytes hall
    match answers, hcontiguous, hbytes, hall with
    | [], _, hbytes, _ => simp [sideBytes] at hbytes
    | [first], _, hbytes, hall =>
      simp [sideBytes, (hall first List.mem_cons_self).2] at hbytes
    | first :: second :: _, hcontiguous, _, hall =>
      obtain ⟨hfirst, hfirstData⟩ := hall first (by simp)
      obtain ⟨hsecond, -⟩ := hall second (by simp)
      obtain ⟨hstart, hnext, -⟩ := hcontiguous
      rw [hfirst] at hstart
      rw [hsecond, ← hstart, Payload.length, hfirstData] at hnext
      simp at hnext

end TrexCli.Capture
