import Mathlib.Data.List.Induction
import TrexCli.Capture.Finish
import TrexCli.Capture.Scan

/-!
# Conservation of datagrams

While nothing is omitted and no flow has an issue, every UDP packet becomes one datagram of one flow,
in the order of the capture. A template counts the flows that have its digest, and these have as many
datagrams as its representative, so the templates of a complete workload account for every packet.
-/

namespace TrexCli.Capture

/-- The UDP packets over IPv4 of a capture. -/
def udpPackets (packets : List Packet) : List Packet :=
  packets.filter fun packet => packet.ethernet.ipUdp?.isSome

/-- A datagram of a flow between two endpoints is that of a packet. -/
def Carries (initiator responder : Endpoint) (packet : Packet) (item : Datagram) : Prop :=
  ∃ sent, packet.ethernet.sent? = some sent ∧ item.payload = sent.payload ∧
    (item.direction = .initiator ∧ sent.source = initiator ∧ sent.destination = responder ∨
      item.direction = .responder ∧ sent.source = responder ∧ sent.destination = initiator)

/-- The packets that belong to flow `i`, when `owner` says of each packet whose it is. -/
def share (owner : List Nat) (packets : List Packet) (i : Nat) : List Packet :=
  ((packets.zip owner).filter fun p => p.2 = i).map Prod.fst

/-- Every packet belongs to one flow, and the datagrams of a flow are those of its packets. -/
structure Distributed (packets : List Packet) (flows : List DatagramFlow) (owner : List Nat) :
    Prop where
  length : owner.length = packets.length
  owners : ∀ i ∈ owner, i < flows.length
  carried : ∀ i flow, flows[i]? = some flow →
    List.Forall₂ (Carries flow.initiator flow.responder) (share owner packets i) flow.datagrams

/-- The offsets of a flow start at zero and do not decrease. -/
structure Timed (flow : DatagramFlow) : Prop where
  starts : (flow.datagrams.map fun item => item.offsetMicroseconds).head? = some 0
  nondecreasing : (flow.datagrams.map fun item => item.offsetMicroseconds).Pairwise (· ≤ ·)

/-- Nothing has been omitted, and no flow has an issue. -/
def DatagramFlowAnalyzer.Clean (a : DatagramFlowAnalyzer) : Prop :=
  a.omittedUdpPacketCount = 0 ∧ ∀ flow ∈ a.flows, flow.issues = []

/-- The datagrams of all flows. -/
def DatagramFlowAnalyzer.stored (a : DatagramFlowAnalyzer) : Nat :=
  (a.flows.map fun flow => flow.datagrams.length).sum

/-- A UDP packet whose datagram is in no flow after it has been observed. -/
def Dropped (s : DatagramSettings) (before : List Packet) (packet : Packet) : Prop :=
  packet.ethernet.ipUdp?.isSome ∧
    ((DatagramFlowAnalyzer.scan s before).observe s packet.timestamp packet.ethernet).stored =
      (DatagramFlowAnalyzer.scan s before).stored

/-! ### Flows and time -/

namespace DatagramFlow

variable {s : DatagramSettings} {flow : DatagramFlow} {total : Nat} {source destination : Endpoint}
  {payload : Payload} {t : ℚ}

/-- What holds of the offsets of a flow, which the time of the flow bounds. -/
structure Ordered (flow : DatagramFlow) : Prop where
  starts : flow.issues = [] →
    (flow.datagrams.map fun item => item.offsetMicroseconds).head? = some 0
  nondecreasing : (flow.datagrams.map fun item => item.offsetMicroseconds).Pairwise (· ≤ ·)
  elapsed : ∀ item ∈ flow.datagrams, item.offsetMicroseconds ≤ flow.elapsedMicroseconds

theorem ordered_begun : Ordered
    ((DatagramFlowAnalyzer.begun t source destination).receive s total source payload).1 := by
  rcases receive_cases s (DatagramFlowAnalyzer.begun t source destination) total source payload with
    h | ⟨value, h⟩
  · rw [h]
    exact ⟨fun _ => rfl, List.pairwise_singleton _ _, fun item hitem => by
      rw [List.mem_singleton.mp hitem]
      exact le_rfl⟩
  · rw [h]
    refine ⟨fun hnil => absurd hnil issue_issues_ne_nil, ?_, ?_⟩
    · rw [issue_datagrams]
      exact List.Pairwise.nil
    · rw [issue_datagrams]
      exact fun item hitem => absurd hitem List.not_mem_nil

theorem Ordered.receive (h : Ordered flow) :
    Ordered ((flow.advance t).receive s total source payload).1 := by
  have hbound : ∀ item ∈ flow.datagrams,
      item.offsetMicroseconds ≤ (flow.advance t).elapsedMicroseconds :=
    fun item hitem => (h.elapsed item hitem).trans le_advance
  rcases receive_cases s (flow.advance t) total source payload with heq | ⟨value, heq⟩
  · rw [heq]
    refine ⟨fun hnil => ?_, ?_, ?_⟩
    · show List.head? (List.map _ (flow.datagrams ++ [_])) = _
      rw [List.map_append, List.head?_append, h.starts hnil]
      rfl
    · show List.Pairwise _ (List.map _ (flow.datagrams ++ [_]))
      rw [List.map_append, List.pairwise_append]
      refine ⟨h.nondecreasing, List.pairwise_singleton _ _, ?_⟩
      intro offset hoffset last hlast
      obtain ⟨item, hitem, rfl⟩ := List.mem_map.mp hoffset
      rw [List.mem_singleton.mp hlast]
      exact hbound item hitem
    · intro item hitem
      rcases List.mem_append.mp hitem with hitem | hitem
      · exact hbound item hitem
      · rw [List.mem_singleton.mp hitem]
        exact le_rfl
  · rw [heq]
    refine ⟨fun hnil => absurd hnil issue_issues_ne_nil, ?_, ?_⟩
    · rw [issue_datagrams]
      exact h.nondecreasing
    · rw [issue_datagrams, issue_elapsedMicroseconds]
      exact hbound

end DatagramFlow

namespace DatagramFlowAnalyzer

open DatagramFlow

variable {s : DatagramSettings} {a a' : DatagramFlowAnalyzer} {t : ℚ} {sent : Sent}
  {packets : List Packet}

theorem Filed.ordered (h : Filed s a t sent a') (ha : ∀ flow ∈ a.flows, Ordered flow) :
    ∀ flow ∈ a'.flows, Ordered flow := by
  intro flow' hflow'
  cases h with
  | live i flow hlive hflow hactive =>
    rcases List.mem_or_eq_of_mem_set hflow' with hold | rfl
    · exact ha flow' hold
    · exact (ha flow (List.mem_of_getElem? hflow)).receive
  | begun hlive hlimit =>
    rcases List.mem_append.mp hflow' with hold | hnew
    · exact ha flow' hold
    · rw [List.mem_singleton.mp hnew]
      exact ordered_begun

/-- In every flow of a scan the offsets are ordered. -/
theorem ordered_scan (s : DatagramSettings) (packets : List Packet) :
    ∀ flow ∈ (scan s packets).flows, Ordered flow := by
  induction packets using List.reverseRecOn with
  | nil => exact fun flow hflow => absurd hflow List.not_mem_nil
  | append_singleton packets packet ih =>
    rw [scan_append_singleton]
    rcases observe_cases s (scan s packets) packet.timestamp packet.ethernet with
      ⟨-, heq⟩ | ⟨-, heq⟩ | ⟨sent, -, hfiled⟩
    · rw [heq]
      exact ih
    · rw [heq]
      exact ih
    · exact hfiled.ordered ih

/-! ### Flows and their keys -/

/-- The active flow of a key has the endpoints of the key. -/
def Keyed (a : DatagramFlowAnalyzer) : Prop :=
  ∀ key i, a.active key = some i →
    ∃ flow, a.flows[i]? = some flow ∧ flowKey flow.initiator flow.responder = key

theorem Filed.keyed (h : Filed s a t sent a') (ha : Keyed a) : Keyed a' := by
  intro key j hkey
  cases h with
  | live i flow hlive hflow hactive =>
    obtain ⟨flow', hflow', hsame⟩ := ha key j hkey
    by_cases hij : i = j
    · subst hij
      obtain rfl : flow = flow' := Option.some.inj (hflow.symm.trans hflow')
      refine ⟨_, List.getElem?_set_self (List.getElem?_eq_some_iff.mp hflow).1, ?_⟩
      rw [receive_initiator, receive_responder]
      exact hsame
    · exact ⟨flow', by rw [List.getElem?_set_ne hij, hflow'], hsame⟩
  | begun hlive hlimit =>
    by_cases hsame : key = sent.key
    · have hj : a.flows.length = j := by simpa [hsame] using hkey
      subst hj
      refine ⟨_, List.getElem?_concat_length, ?_⟩
      rw [receive_initiator, receive_responder, hsame]
      rfl
    · have hold : a.active key = some j := by simpa [hsame] using hkey
      obtain ⟨flow, hflow, hkeys⟩ := ha key j hold
      refine ⟨flow, ?_, hkeys⟩
      rw [List.getElem?_append_left (List.getElem?_eq_some_iff.mp hflow).1, hflow]

theorem keyed_scan (s : DatagramSettings) (packets : List Packet) : Keyed (scan s packets) := by
  induction packets using List.reverseRecOn with
  | nil => exact fun key i h => absurd h (by simp [scan])
  | append_singleton packets packet ih =>
    rw [scan_append_singleton]
    rcases observe_cases s (scan s packets) packet.timestamp packet.ethernet with
      ⟨-, heq⟩ | ⟨-, heq⟩ | ⟨sent, -, hfiled⟩
    · rw [heq]
      exact ih
    · rw [heq]
      exact ih
    · exact hfiled.keyed ih

/-! ### Clean scans -/

/-- The flows after one has taken a datagram: an active flow, or a new one. -/
inductive Takes (a : DatagramFlowAnalyzer) (t : ℚ) (sent : Sent) : List DatagramFlow → Prop
  | live (i : Nat) (flow : DatagramFlow) (hflow : a.flows[i]? = some flow)
      (hactive : a.active sent.key = some i) :
      Takes a t sent (a.flows.set i ((flow.advance t).take sent.source sent.payload))
  | begun : Takes a t sent
      (a.flows ++ [(begun t sent.source sent.destination).take sent.source sent.payload])

/-- When nothing is wrong after a datagram, nothing was before, and a flow has taken it. -/
theorem Filed.clean (h : Filed s a t sent a') (hclean : Clean a') :
    Clean a ∧ Takes a t sent a'.flows := by
  obtain ⟨homitted, hissues⟩ := hclean
  cases h with
  | live i flow hlive hflow hactive =>
    have hlt := (List.getElem?_eq_some_iff.mp hflow).1
    have hself := hissues _ (List.mem_set hlt _)
    rcases receive_cases s (flow.advance t) a.storedPayloadBytes sent.source sent.payload with
      heq | ⟨value, heq⟩
    · refine ⟨⟨homitted, fun other hother => ?_⟩, ?_⟩
      · obtain ⟨j, hj⟩ := List.mem_iff_getElem?.mp hother
        by_cases hij : i = j
        · subst hij
          obtain rfl : flow = other := Option.some.inj (hflow.symm.trans hj)
          rw [heq] at hself
          exact hself
        · exact hissues other (List.mem_iff_getElem?.mpr
            ⟨j, by rw [List.getElem?_set_ne hij, hj]⟩)
      · dsimp only
        rw [heq]
        exact .live i flow hflow hactive
    · rw [heq] at hself
      exact absurd hself issue_issues_ne_nil
  | begun hlive hlimit =>
    have hself := hissues _ (List.mem_append_right _ (List.mem_singleton_self _))
    rcases receive_cases s (DatagramFlowAnalyzer.begun t sent.source sent.destination)
      a.storedPayloadBytes sent.source sent.payload with heq | ⟨value, heq⟩
    · refine ⟨⟨homitted, fun other hother => hissues other (List.mem_append_left _ hother)⟩, ?_⟩
      dsimp only
      rw [heq]
      exact .begun
    · rw [heq] at hself
      exact absurd hself issue_issues_ne_nil

/-- When nothing is wrong after a packet, nothing was before, and a UDP packet is in a flow. -/
theorem clean_of_observe {packet : Packet}
    (hclean : Clean (a.observe s packet.timestamp packet.ethernet)) :
    Clean a ∧ (packet.ethernet.ipUdp? = none ∧ a.observe s packet.timestamp packet.ethernet = a ∨
      packet.ethernet.ipUdp?.isSome ∧ ∃ sent, packet.ethernet.sent? = some sent ∧
        Takes a packet.timestamp sent (a.observe s packet.timestamp packet.ethernet).flows) := by
  rcases observe_cases s a packet.timestamp packet.ethernet with
    ⟨hudp, heq⟩ | ⟨-, heq⟩ | ⟨sent, hsent, hfiled⟩
  · rw [heq] at hclean ⊢
    exact ⟨hclean, .inl ⟨hudp, rfl⟩⟩
  · rw [heq] at hclean
    exact absurd hclean.1 (by simp [omitPacket])
  · obtain ⟨hbefore, htakes⟩ := hfiled.clean hclean
    exact ⟨hbefore, .inr ⟨ipUdp?_of_sent hsent, sent, hsent, htakes⟩⟩

/-- A datagram that is taken is one more. -/
theorem Takes.stored {flows : List DatagramFlow} (h : Takes a t sent flows) :
    (flows.map fun flow => flow.datagrams.length).sum = a.stored + 1 := by
  unfold DatagramFlowAnalyzer.stored
  cases h with
  | live i flow hflow hactive =>
    obtain ⟨hlt, hget⟩ := List.getElem?_eq_some_iff.mp hflow
    have hsplit : a.flows = a.flows.take i ++ flow :: a.flows.drop (i + 1) := by
      rw [← hget, List.cons_getElem_drop_succ, List.take_append_drop]
    rw [List.set_eq_take_append_cons_drop, if_pos hlt]
    conv_rhs => rw [hsplit]
    simp only [List.map_append, List.map_cons, List.sum_append, List.sum_cons, DatagramFlow.take,
      advance_datagrams, List.length_append, List.length_singleton]
    omega
  | begun => simp [DatagramFlow.take, DatagramFlowAnalyzer.begun]

/-- A clean scan has stored one datagram of every UDP packet. -/
theorem stored_of_clean (h : Clean (scan s packets)) :
    (scan s packets).stored = (udpPackets packets).length := by
  induction packets using List.reverseRecOn with
  | nil => rfl
  | append_singleton packets packet ih =>
    rw [scan_append_singleton] at h ⊢
    obtain ⟨hbefore, ⟨hudp, heq⟩ | ⟨hudp, sent, -, htakes⟩⟩ := clean_of_observe h
    · rw [heq, ih hbefore]
      simp [udpPackets, hudp]
    · show List.sum _ = _
      rw [htakes.stored, ih hbefore]
      simp [udpPackets, hudp]

/-- After a packet has been dropped, a scan is not clean. -/
theorem Dropped.not_clean {before after : List Packet} {packet : Packet}
    (h : Dropped s before packet) : ¬Clean (scan s (before ++ packet :: after)) := by
  induction after using List.reverseRecOn with
  | nil =>
    intro hclean
    rw [scan_append_singleton] at hclean
    obtain ⟨hudp, hsame⟩ := h
    obtain ⟨-, ⟨hnone, -⟩ | ⟨-, sent, -, htakes⟩⟩ := clean_of_observe hclean
    · rw [hnone] at hudp
      exact absurd hudp (by simp)
    · have hstored := htakes.stored
      rw [← hsame] at hstored
      exact absurd hstored (by simp [DatagramFlowAnalyzer.stored])
  | append_singleton after last ih =>
    intro hclean
    rw [show before ++ packet :: (after ++ [last]) = before ++ packet :: after ++ [last] by simp,
      scan_append_singleton] at hclean
    exact ih (clean_of_observe hclean).1

end DatagramFlowAnalyzer

/-! ### Whose packets -/

section Distribution

variable {packets : List Packet} {packet : Packet} {owner : List Nat} {i j : Nat}

theorem share_append (h : owner.length = packets.length) :
    share (owner ++ [j]) (packets ++ [packet]) i =
      share owner packets i ++ if j = i then [packet] else [] := by
  unfold share
  rw [List.zip_append h.symm, List.filter_append, List.map_append]
  congr 1
  by_cases hij : j = i <;> simp [hij]

theorem share_eq_nil (h : ∀ k ∈ owner, k ≠ i) : share owner packets i = [] := by
  rw [share, List.map_eq_nil_iff, List.filter_eq_nil_iff]
  intro p hp hi
  exact h p.2 (List.of_mem_zip hp).2 (by simpa using hi)

/-- Pairs with the same sorted pair are the same, or the other way round. -/
theorem flowKey_eq {a b c d : Endpoint} (h : flowKey a b = flowKey c d) :
    a = c ∧ b = d ∨ a = d ∧ b = c := by
  rcases flowKey_cases a b with hab | hab <;> rcases flowKey_cases c d with hcd | hcd <;>
    rw [hab, hcd] at h <;> obtain ⟨h₁, h₂⟩ := Prod.mk.inj h
  · exact .inl ⟨h₁, h₂⟩
  · exact .inr ⟨h₁, h₂⟩
  · exact .inr ⟨h₂, h₁⟩
  · exact .inl ⟨h₂, h₁⟩

/-- The datagram that a flow takes is that of the packet, in its direction. -/
theorem carries_take {flow : DatagramFlow} {sent : Sent} {offset : Nat}
    (hsent : packet.ethernet.sent? = some sent)
    (hkey : flowKey flow.initiator flow.responder = sent.key) :
    Carries flow.initiator flow.responder packet
      ⟨flow.direction sent.source, offset, sent.payload⟩ := by
  refine ⟨sent, hsent, rfl, ?_⟩
  unfold DatagramFlow.direction
  rcases flowKey_eq hkey with ⟨hinitiator, hresponder⟩ | ⟨hinitiator, hresponder⟩
  · exact .inl ⟨if_pos hinitiator.symm, hinitiator.symm, hresponder.symm⟩
  · by_cases hsource : sent.source = flow.initiator
    · exact .inl ⟨if_pos hsource, hsource, by rw [← hinitiator, ← hsource, hresponder]⟩
    · exact .inr ⟨if_neg hsource, hresponder.symm, hinitiator.symm⟩

theorem Distributed.step {a : DatagramFlowAnalyzer} {sent : Sent} {flows : List DatagramFlow}
    (h : Distributed packets a.flows owner) (hkeyed : a.Keyed)
    (hsent : packet.ethernet.sent? = some sent) (htakes : a.Takes packet.timestamp sent flows) :
    ∃ owner', Distributed (packets ++ [packet]) flows owner' := by
  cases htakes with
  | live i flow hflow hactive =>
    obtain ⟨hlt, -⟩ := List.getElem?_eq_some_iff.mp hflow
    refine ⟨owner ++ [i], by simp [h.length], ?_, fun j flow' hj => ?_⟩
    · intro k hk
      rw [List.length_set]
      rcases List.mem_append.mp hk with hk | hk
      · exact h.owners k hk
      · rw [List.mem_singleton.mp hk]
        exact hlt
    · rw [share_append h.length]
      by_cases hij : i = j
      · subst hij
        rw [List.getElem?_set_self hlt] at hj
        obtain rfl := Option.some.inj hj
        obtain ⟨other, hother, hkey⟩ := hkeyed _ _ hactive
        obtain rfl : flow = other := Option.some.inj (hflow.symm.trans hother)
        rw [if_pos rfl]
        exact List.rel_append (h.carried i flow hflow) (.cons (carries_take hsent hkey) .nil)
      · rw [List.getElem?_set_ne hij] at hj
        rw [if_neg hij, List.append_nil]
        exact h.carried j flow' hj
  | begun =>
    refine ⟨owner ++ [a.flows.length], by simp [h.length], ?_, fun j flow' hj => ?_⟩
    · intro k hk
      rw [List.length_append, List.length_singleton]
      rcases List.mem_append.mp hk with hk | hk
      · exact (h.owners k hk).trans (by omega)
      · rw [List.mem_singleton.mp hk]
        omega
    · rw [share_append h.length]
      by_cases hlt : j < a.flows.length
      · rw [List.getElem?_append_left hlt] at hj
        rw [if_neg (by omega), List.append_nil]
        exact h.carried j flow' hj
      · have hle := (List.getElem?_eq_some_iff.mp hj).1
        rw [List.length_append, List.length_singleton] at hle
        obtain rfl : j = a.flows.length := by omega
        rw [List.getElem?_concat_length] at hj
        obtain rfl := Option.some.inj hj
        rw [if_pos rfl, share_eq_nil fun k hk => (h.owners k hk).ne, List.nil_append]
        exact .cons (carries_take hsent rfl) .nil

/-- A clean scan distributes the UDP packets over its flows. -/
theorem distributed_of_clean {s : DatagramSettings}
    (h : (DatagramFlowAnalyzer.scan s packets).Clean) :
    ∃ owner, Distributed (udpPackets packets) (DatagramFlowAnalyzer.scan s packets).flows owner := by
  induction packets using List.reverseRecOn with
  | nil => exact ⟨[], rfl, by simp, by simp [DatagramFlowAnalyzer.scan]⟩
  | append_singleton packets packet ih =>
    rw [DatagramFlowAnalyzer.scan_append_singleton] at h ⊢
    obtain ⟨hbefore, ⟨hudp, heq⟩ | ⟨hudp, sent, hsent, htakes⟩⟩ :=
      DatagramFlowAnalyzer.clean_of_observe h
    · rw [heq, show udpPackets (packets ++ [packet]) = udpPackets packets by simp [udpPackets, hudp]]
      exact ih hbefore
    · obtain ⟨owner, howner⟩ := ih hbefore
      rw [show udpPackets (packets ++ [packet]) = udpPackets packets ++ [packet] by
        simp [udpPackets, hudp]]
      exact howner.step (DatagramFlowAnalyzer.keyed_scan s packets) hsent htakes

end Distribution

/-! ### Complete workloads -/

section Complete

variable {sha256 : Bytes → Digest} {s : DatagramSettings} {packets : List Packet}
  {analysis : DatagramCaptureAnalysis}

theorem CollisionFree.of_perm {flows flows' : List DatagramFlow} (h : CollisionFree sha256 flows)
    (hperm : flows'.Perm flows) : CollisionFree sha256 flows' := by
  refine h.mono ?_
  rintro octets ⟨flow, hflow, hoctets⟩
  exact ⟨flow, hperm.mem_iff.mp hflow, hoctets⟩

/-- A complete workload is that of a clean scan. -/
theorem Finished.clean {a : DatagramFlowAnalyzer} (h : Finished sha256 s a analysis)
    (hcomplete : analysis.workloadComplete = true) : a.Clean := by
  obtain ⟨analyzed, templates, unordered, hanalyzed, -, -, hiff, -, -⟩ := h.steps
  obtain ⟨homitted, hreplayable, -, -⟩ := hiff.mp hcomplete
  obtain ⟨hperm, hpairs⟩ := analyzed_eq_ok hanalyzed
  refine ⟨homitted, fun flow hflow => ?_⟩
  obtain ⟨p, hp, rfl⟩ := List.mem_map.mp (hperm.mem_iff.mpr hflow)
  obtain ⟨-, -, -, -, hissues⟩ := DatagramFlow.analysis_eq_ok (hpairs p hp)
  exact hissues.mp (hreplayable p hp)

/-- The templates of a complete workload account for the datagrams of all flows. -/
theorem Finished.load {a : DatagramFlowAnalyzer} (h : Finished sha256 s a analysis)
    (hsha : CollisionFree sha256 a.flows) (hcomplete : analysis.workloadComplete = true) :
    (analysis.workloadTemplates.map fun template =>
      template.occurrenceCount * template.datagramCount).sum = a.stored := by
  obtain ⟨analyzed, templates, unordered, hanalyzed, htally, hunordered, hiff, hpublished, -⟩ :=
    h.steps
  obtain ⟨-, hreplayable, hlength, -⟩ := hiff.mp hcomplete
  obtain ⟨hperm, -⟩ := analyzed_eq_ok hanalyzed
  obtain ⟨-, hload⟩ := tally_eq_ok (entries_nil sha256 analyzed) (fun _ hp => hp) htally
  have htemplates : (templates.map fun e => e.count * e.flow.datagrams.length) =
      unordered.map fun template => template.occurrenceCount * template.datagramCount := by
    clear hload htally hiff hpublished hlength
    induction hunordered with
    | nil => rfl
    | cons hentry _ ih =>
      obtain ⟨-, rfl⟩ := validated_eq_ok.mp hentry
      rw [List.map_cons, List.map_cons, ih]
  rw [hpublished, List.take_of_length_le (by rwa [(perm_sortById _ _).length_eq]),
    ((perm_sortById _ _).map _).sum_eq, ← htemplates]
  calc Capture.load templates
      = replayableLoad analyzed := by
        rw [hload (hsha.of_perm hperm)]
        exact Nat.zero_add _
    _ = ((analyzed.map Prod.fst).map fun flow => flow.datagrams.length).sum := by
        rw [replayableLoad, List.filter_eq_self.mpr hreplayable, List.map_map]
        rfl
    _ = a.stored := (hperm.map _).sum_eq

/-- The templates of a complete workload account for every UDP packet of the capture, each of which
belongs to one flow; a workload with a dropped packet is not complete. -/
theorem datagrams_conserved
    (hsha : CollisionFree sha256 (DatagramFlowAnalyzer.scan s packets).flows)
    (h : (DatagramFlowAnalyzer.scan s packets).finish sha256 s = .ok (some analysis)) :
    (analysis.workloadComplete = true →
      (analysis.workloadTemplates.map fun template =>
        template.occurrenceCount * template.datagramCount).sum = (udpPackets packets).length ∧
      (∃ owner, Distributed (udpPackets packets) (DatagramFlowAnalyzer.scan s packets).flows owner) ∧
      ∀ flow ∈ (DatagramFlowAnalyzer.scan s packets).flows, Timed flow) ∧
    ∀ before packet after, packets = before ++ packet :: after → Dropped s before packet →
      analysis.workloadComplete = false := by
  have hfinished := finished_of_finish h
  constructor
  · intro hcomplete
    have hclean := hfinished.clean hcomplete
    refine ⟨?_, distributed_of_clean hclean, fun flow hflow => ?_⟩
    · rw [hfinished.load hsha hcomplete]
      exact DatagramFlowAnalyzer.stored_of_clean hclean
    · have hordered := DatagramFlowAnalyzer.ordered_scan s packets flow hflow
      exact ⟨hordered.starts (hclean.2 flow hflow), hordered.nondecreasing⟩
  · rintro before packet after rfl hdropped
    by_contra hcomplete
    exact DatagramFlowAnalyzer.Dropped.not_clean hdropped
      (hfinished.clean (Bool.eq_true_of_not_eq_false hcomplete))

/-- A question and its answer. -/
def sampleExchange : List Packet :=
  [⟨0, 60, sampleUdp 1 2 4000 53 .empty⟩, ⟨1, 60, sampleUdp 2 1 53 4000 .empty⟩]

theorem datagrams_conserved_exchange : ∃ analysis,
    (DatagramFlowAnalyzer.scan {} sampleExchange).finish sampleHash {} = .ok (some analysis) ∧
    (analysis.workloadComplete = true →
      (analysis.workloadTemplates.map fun template =>
        template.occurrenceCount * template.datagramCount).sum =
          (udpPackets sampleExchange).length ∧
      (∃ owner, Distributed (udpPackets sampleExchange)
        (DatagramFlowAnalyzer.scan {} sampleExchange).flows owner) ∧
      ∀ flow ∈ (DatagramFlowAnalyzer.scan {} sampleExchange).flows, Timed flow) ∧
    ∀ before packet after, sampleExchange = before ++ packet :: after → Dropped {} before packet →
      analysis.workloadComplete = false := by
  have hlength : (DatagramFlowAnalyzer.scan {} sampleExchange).flows.length = 1 := by decide +kernel
  obtain ⟨flow, hflow⟩ := List.length_eq_one_iff.mp hlength
  obtain ⟨analysis, hanalysis⟩ := @exists_report sampleHash {}
    (DatagramFlowAnalyzer.scan {} sampleExchange) (by decide +kernel) (by simp [hflow]) (by decide)
  refine ⟨analysis, hanalysis, datagrams_conserved ?_ hanalysis⟩
  rintro octets ⟨f, hf, hoctets⟩ octets' ⟨g, hg, hoctets'⟩ -
  rw [hflow, List.mem_singleton] at hf hg
  subst hf hg
  exact Except.ok.inj (hoctets.symm.trans hoctets')

end Complete

end TrexCli.Capture
