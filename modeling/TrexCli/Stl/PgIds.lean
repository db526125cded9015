import TrexCli.Replay.Authorisation
import TrexCli.Rfc2544.Suite
import TrexCli.Stl.Observation
import TrexCli.Storm.Documents
import TrexCli.Workload.Admission

/-!
# Flow-statistics ids

`_prepare_sync` of the remote STL engine numbers the streams of a job from a number on that its lowest
and its highest port give. The first ids of two jobs without a common port are at least 3588 apart
(`firstPgId_apart`), which is more than the streams of a job, unless it is a UDP workload of more
datagrams. A replay has ids, but its streams have no statistics.
-/

namespace TrexCli.PgIds

open Observation (StreamDirection)
open Storm (PacketStormSpec StormPolicy validatePacketStorm)
open Rfc2544

/-! ### Documents -/

/-- The documents that an STL engine runs. -/
inductive StlDocument where
  | traffic (doc : TrafficDocument)
  | pcapReplay (spec : PcapReplaySpec)
  | udpWorkload (spec : UdpWorkloadSpec)
  | packetStorm (spec : PacketStormSpec)

namespace StlDocument

/-- The ports of a document; what their order is and whether one is listed twice makes no difference. -/
def logicalPorts : StlDocument → List PortId
  | traffic doc => doc.requested
  | pcapReplay spec => [spec.ports.tx, spec.ports.rx]
  | udpWorkload spec => [spec.initiator.port, spec.responder.port]
  | packetStorm spec => spec.logicalPorts

/-- `_validate_policy` -/
def validate (logicalPorts : List PortId) (policy : StormPolicy) : StlDocument → Except Exc Unit
  | traffic doc => validateTraffic logicalPorts policy.toSafetyPolicy doc
  | pcapReplay spec => validateReplay logicalPorts policy.toSafetyPolicy spec
  | udpWorkload spec => validateUdpWorkload logicalPorts policy.toSafetyPolicy spec
  | packetStorm spec => validatePacketStorm logicalPorts policy spec

/-- An RFC2544 document. -/
def rfc2544? : StlDocument → Option Rfc2544ThroughputSpec
  | traffic (.throughput spec) => some spec
  | traffic (.suite spec) => some spec.toRfc2544ThroughputSpec
  | _ => none

end StlDocument

/-! ### Preparation -/

/-- The number of ids of a document with one stream in each direction. -/
def directionCount : Direction → Nat
  | .bidirectional => 2
  | .unidirectional => 1

/-- The first of the ids of a job. -/
def firstPgId (ports : List Nat) : Nat := 1 + ports.min?.getD 0 * 4096 + ports.max?.getD 0 * 2

/-- `_pg_ids` -/
def pgIds (ports : List Nat) (count : Nat) : List Nat :=
  (List.range count).map fun index => firstPgId ports + index

/-- `pg_ids[index]` -/
def pgIdAt (ids : List Nat) (index : Nat) : Except Exc Nat :=
  match ids[index]? with
  | some id => .ok id
  | none => .error (.exception "list index out of range")

/-- The elements with the ids from an index on. -/
def numberedFrom {α : Type} (ids : List Nat) : Nat → List α → Except Exc (List (α × Nat))
  | _, [] => .ok []
  | index, x :: rest => do
    let id ← pgIdAt ids index
    let others ← numberedFrom ids (index + 1) rest
    pure ((x, id) :: others)

/-- A stream that is added to a port, and the id of its flow statistics, if it has any. -/
structure InstalledStream where
  port : Nat
  pgId : Option Nat
  deriving DecidableEq

/-- What preparation uses: the ports, the captures, the package that reads frames, whether the server
reads replays from its own disk, and how many streams `STLProfile.load_pcap` makes of a file. -/
structure StlEngine extends WorkloadEngine where
  replayRoot : Option (String → Option CaptureFile)
  dpkt : Dpkt
  remoteRoot : Bool
  loadPcap : ReplayCompilation → Nat

/-- `_Session` -/
structure StlSession where
  ports : List Nat
  pgIds : List Nat
  streams : List InstalledStream

section Preparation

variable (engine : StlEngine)

/-- The physical ports of a document. -/
def StlEngine.physicalPorts (doc : StlDocument) : List Nat := doc.logicalPorts.map engine.portMapping

/-- `_udp_templates` -/
def udpTemplates (spec : UdpWorkloadSpec) :
    Except Exc (List (DatagramTemplateBinding × DatagramTemplate)) := do
  let capture ← openCapture engine.toWorkloadEngine "UDP workload" spec.capture
  spec.workload.templates.mapM fun binding => do
    let template ← udpTemplate capture binding
    pure (binding, template)

/-- The datagrams of the templates. -/
def datagramCount (templates : List (DatagramTemplateBinding × DatagramTemplate)) : Nat :=
  (templates.map fun item => item.2.datagrams.length).sum

/-- `_directions`, with their ports and ids. -/
def numberedDirections (ids : List Nat) (spec : StatelessTrafficSpec) :
    Except Exc (List StreamDirection) := do
  let directions ← numberedFrom ids 0 spec.directions
  pure (directions.map fun item =>
    { name := item.1.name
      txPort := engine.portMapping item.1.tx
      rxPort := engine.portMapping item.1.rx
      pgId := item.2
      packet := item.1.packet
      rate := item.1.rate
      reverse := item.1.reverse })

/-- `_install_streams` -/
def installStreams (directions : List StreamDirection) (includeFlowStats : Bool) :
    List InstalledStream :=
  directions.map fun direction =>
    ⟨direction.txPort, if includeFlowStats then some direction.pgId else none⟩

/-- Whether all packets have an address to tell flows by. -/
def usesFlowStats (directions : List StreamDirection) : Bool :=
  directions.all fun direction => direction.packet.network.isSome

/-- `_prepare_sync`, for stateless traffic. -/
def prepareStateless (spec : StatelessTrafficSpec) : Except Exc StlSession := do
  let ports := spec.logicalPorts.map engine.portMapping
  let count := if spec.streams = [] then directionCount spec.ports.direction else spec.streams.length
  let directions ← numberedDirections engine (pgIds ports count) spec
  pure ⟨ports, pgIds ports count, installStreams directions (usesFlowStats directions)⟩

/-- `_prepare_sync`, for a document of RFC2544: the trials install their streams. -/
def prepareRfc2544 (spec : Rfc2544ThroughputSpec) : StlSession :=
  let ports := [spec.ports.tx, spec.ports.rx].map engine.portMapping
  ⟨ports, pgIds ports (directionCount spec.ports.direction), []⟩

/-- `_prepare_sync`, for a replay: the streams of the compiled file, without statistics. -/
def prepareReplay (spec : PcapReplaySpec) : Except Exc StlSession := do
  let file ← validateReplaySource engine.replayRoot spec
  let replay ← compileReplay engine.dpkt spec file
  let ports := [spec.ports.tx, spec.ports.rx].map engine.portMapping
  let count := if engine.remoteRoot then 0 else engine.loadPcap replay
  pure ⟨ports, pgIds ports (directionCount spec.ports.direction),
    List.replicate count ⟨engine.portMapping spec.ports.tx, none⟩⟩

/-- `_prepare_sync`, for a UDP workload: a stream of each datagram. -/
def prepareUdp (spec : UdpWorkloadSpec) : Except Exc StlSession := do
  let templates ← udpTemplates engine spec
  let ports := [spec.initiator.port, spec.responder.port].map engine.portMapping
  let ids := pgIds ports (datagramCount templates)
  let streams ← numberedFrom ids 0 (templates.flatMap fun item =>
    udpStreams engine.toWorkloadEngine spec item.1 item.2)
  pure ⟨ports, ids, streams.map fun item => ⟨item.1.txPort, some item.2⟩⟩

/-- `_prepare_sync`, for a packet storm: one stream, without statistics for ARP. -/
def prepareStorm (spec : PacketStormSpec) : Except Exc StlSession := do
  let ports := spec.logicalPorts.map engine.portMapping
  let id ← pgIdAt (pgIds ports 1) 0
  let pgId := match spec with
    | .arp _ => none
    | _ => some id
  pure ⟨ports, pgIds ports 1, [⟨engine.portMapping spec.txPort, pgId⟩]⟩

/-- `_prepare_sync` -/
def prepare : StlDocument → Except Exc StlSession
  | .traffic (.stateless spec) => prepareStateless engine spec
  | .traffic (.throughput spec) => .ok (prepareRfc2544 engine spec)
  | .traffic (.suite spec) => .ok (prepareRfc2544 engine spec.toRfc2544ThroughputSpec)
  | .pcapReplay spec => prepareReplay engine spec
  | .udpWorkload spec => prepareUdp engine spec
  | .packetStorm spec => prepareStorm engine spec

/-- The streams of a trial. -/
def trialStreams (session : StlSession) (trial : StatelessTrafficSpec) :
    Except Exc (List InstalledStream) := do
  let directions ← numberedDirections engine session.pgIds trial
  pure (installStreams directions true)

end Preparation

/-- The id of the tagged stream of a latency trial. -/
def latencyPgId (session : StlSession) : Nat := session.pgIds.max?.getD 0 + 128

/-- The ids of a job, with that of latency trials. -/
def statisticsIds (doc : StlDocument) (session : StlSession) : List Nat :=
  if doc.rfc2544?.isSome then session.pgIds ++ [latencyPgId session] else session.pgIds

/-! ### The ids of a job -/

section Ids

variable {ports : List Nat} {count : Nat}

@[simp] theorem length_pgIds (ports : List Nat) (count : Nat) : (pgIds ports count).length = count := by
  simp [pgIds]

theorem mem_pgIds {id : Nat} :
    id ∈ pgIds ports count ↔ firstPgId ports ≤ id ∧ id < firstPgId ports + count := by
  simp only [pgIds, List.mem_map, List.mem_range]
  constructor
  · rintro ⟨index, hindex, rfl⟩
    omega
  · rintro ⟨hlow, hhigh⟩
    exact ⟨id - firstPgId ports, by omega, by omega⟩

theorem nodup_pgIds (ports : List Nat) (count : Nat) : (pgIds ports count).Nodup :=
  List.nodup_range.map fun _ _ => Nat.add_left_cancel

/-- The lowest and the highest port. -/
theorem min?_max? (hne : ports ≠ []) : ∃ low high, ports.min? = some low ∧ ports.max? = some high ∧
    low ∈ ports ∧ high ∈ ports ∧ low ≤ high := by
  obtain ⟨low, hlow⟩ := Option.isSome_iff_exists.mp (List.isSome_min?_of_ne_nil hne)
  obtain ⟨high, hhigh⟩ := Option.isSome_iff_exists.mp (List.isSome_max?_of_ne_nil hne)
  have hmem := List.min?_mem hlow
  exact ⟨low, high, hlow, hhigh, hmem, List.max?_mem hhigh, (List.max?_eq_some_iff.mp hhigh).2 low hmem⟩

/-- The first ids of jobs without a common port. -/
theorem firstPgId_apart {others : List Nat} (hne : ports ≠ []) (hne' : others ≠ [])
    (hports : ∀ port ∈ ports, port ≤ 255) (hothers : ∀ port ∈ others, port ≤ 255)
    (hapart : ports.Disjoint others) :
    firstPgId ports + 3588 ≤ firstPgId others ∨ firstPgId others + 3588 ≤ firstPgId ports := by
  obtain ⟨low, high, hlow, hhigh, hlowMem, hhighMem, hle⟩ := min?_max? hne
  obtain ⟨low', high', hlow', hhigh', hlowMem', hhighMem', hle'⟩ := min?_max? hne'
  have hbound := hports high hhighMem
  have hbound' := hothers high' hhighMem'
  have hne : low ≠ low' := by
    rintro rfl
    exact hapart hlowMem hlowMem'
  simp only [firstPgId, hlow, hhigh, hlow', hhigh', Option.getD_some]
  omega

/-- The greatest id. -/
theorem max?_pgIds (h : 0 < count) : (pgIds ports count).max? = some (firstPgId ports + count - 1) := by
  rw [List.max?_eq_some_iff]
  refine ⟨mem_pgIds.mpr ⟨by omega, by omega⟩, fun id hid => ?_⟩
  have hmem := mem_pgIds.mp hid
  omega

end Ids

section Numbered

variable {α : Type} {ids : List Nat}

/-- There is an id for each element: the elements get them in order. -/
theorem numberedFrom_eq_ok {index : Nat} {xs : List α} (h : index + xs.length ≤ ids.length) :
    numberedFrom ids index xs = .ok (xs.zip (ids.drop index)) := by
  induction xs generalizing index with
  | nil => rfl
  | cons x xs ih =>
    rw [List.length_cons] at h
    have hindex : index < ids.length := by omega
    rw [numberedFrom, pgIdAt, List.getElem?_eq_getElem hindex, ih (by omega),
      List.drop_eq_getElem_cons hindex]
    rfl

theorem numberedFrom_zero {xs : List α} (h : xs.length ≤ ids.length) :
    numberedFrom ids 0 xs = .ok (xs.zip ids) := by
  rw [numberedFrom_eq_ok (by omega), List.drop_zero]

end Numbered

/-- As many ids as streams, and each stream that has statistics has the id of its place. -/
structure Numbered (session : StlSession) : Prop where
  count : session.pgIds.length = session.streams.length
  ids : ∀ (i : Nat) (stream : InstalledStream), session.streams[i]? = some stream →
    stream.pgId = none ∨ stream.pgId = session.pgIds[i]?

/-- Elements that are numbered and installed. -/
theorem numbered_of_zip {α : Type} {ports ids : List Nat} {xs : List α} (hlength : xs.length = ids.length)
    {f : α × Nat → InstalledStream} (hf : ∀ item, (f item).pgId = none ∨ (f item).pgId = some item.2) :
    Numbered ⟨ports, ids, (xs.zip ids).map f⟩ where
  count := by simp [hlength]
  ids := by
    intro i stream hstream
    rw [List.getElem?_map, Option.map_eq_some_iff] at hstream
    obtain ⟨item, hitem, rfl⟩ := hstream
    rw [(List.getElem?_zip_eq_some.mp hitem).2]
    exact hf item

section Session

variable {engine : StlEngine} {session : StlSession}

/-- The ids of a session are as many as `count`, from the first of its ports on. -/
structure Allotted (engine : StlEngine) (doc : StlDocument) (session : StlSession) (count : Nat) :
    Prop where
  ports : session.ports = engine.physicalPorts doc
  pgIds : session.pgIds = pgIds session.ports count

theorem directions_length (spec : StatelessTrafficSpec) : spec.directions.length =
    if spec.streams = [] then directionCount spec.ports.direction else spec.streams.length := by
  unfold StatelessTrafficSpec.directions
  split
  · cases spec.ports.direction <;> rfl
  · rw [List.length_map]

theorem directionCount_le (direction : Direction) :
    1 ≤ directionCount direction ∧ directionCount direction ≤ 2 := by
  cases direction <;> decide

theorem prepareStateless_eq_ok {spec : StatelessTrafficSpec}
    (h : prepareStateless engine spec = .ok session) :
    (∃ count ≤ 256, Allotted engine (.traffic (.stateless spec)) session count) ∧ Numbered session := by
  have hlength : spec.directions.length ≤ 256 := by
    rw [directions_length]
    have hbounded := spec.bounded
    split
    · exact (directionCount_le _).2.trans (by decide)
    · exact hbounded
  rw [prepareStateless] at h
  simp only [← directions_length, numberedDirections, numberedFrom_zero (length_pgIds _ _).ge] at h
  obtain rfl := Except.ok.inj h
  refine ⟨⟨_, hlength, rfl, rfl⟩, ?_⟩
  simp only [installStreams, List.map_map]
  refine numbered_of_zip (length_pgIds _ _).symm fun item => ?_
  generalize usesFlowStats _ = includeFlowStats
  cases includeFlowStats
  · exact .inl rfl
  · exact .inr rfl

theorem length_udpStreams (templates : List (DatagramTemplateBinding × DatagramTemplate))
    (spec : UdpWorkloadSpec) : (templates.flatMap fun item =>
      udpStreams engine.toWorkloadEngine spec item.1 item.2).length = datagramCount templates := by
  rw [List.length_flatMap, datagramCount]
  simp [udpStreams]

theorem prepareUdp_eq_ok {spec : UdpWorkloadSpec} (h : prepareUdp engine spec = .ok session) :
    (∃ templates, udpTemplates engine spec = .ok templates ∧
      Allotted engine (.udpWorkload spec) session (datagramCount templates)) ∧ Numbered session := by
  obtain ⟨templates, htemplates, h⟩ := bind_eq_ok.mp h
  have hlength := @length_udpStreams engine templates spec
  simp only [numberedFrom_zero (hlength.le.trans (length_pgIds _ _).ge)] at h
  obtain rfl := Except.ok.inj h
  refine ⟨⟨templates, htemplates, rfl, rfl⟩, ?_⟩
  exact numbered_of_zip (hlength.trans (length_pgIds _ _).symm) fun _ => .inr rfl

theorem prepareStorm_eq_ok {spec : PacketStormSpec} (h : prepareStorm engine spec = .ok session) :
    Allotted engine (.packetStorm spec) session 1 ∧ Numbered session := by
  obtain ⟨id, hid, h⟩ := bind_eq_ok.mp h
  obtain rfl := Except.ok.inj h
  obtain rfl := Except.ok.inj hid
  refine ⟨⟨rfl, rfl⟩, rfl, ?_⟩
  intro i stream hstream
  cases i with
  | zero =>
    obtain rfl := Option.some.inj hstream
    cases spec
    · exact .inr rfl
    · exact .inr rfl
    · exact .inl rfl
  | succ i => cases hstream

/-- A trial has at most as many streams as the directions of its job. -/
theorem directedSpec_length {spec : Rfc2544ThroughputSpec} {forward : Packet} {reverse : Option Packet}
    {rate : Rate} {durationSeconds : ℚ} {selected : Option Selected} {trial : StatelessTrafficSpec}
    (h : spec.directedSpec forward reverse rate durationSeconds selected = .ok trial) :
    trial.directions.length ≤ directionCount spec.ports.direction := by
  have hpos := (directionCount_le spec.ports.direction).1
  unfold Rfc2544ThroughputSpec.directedSpec at h
  split at h
  · obtain rfl := Except.ok.inj h
    exact hpos
  · obtain rfl := Except.ok.inj h
    exact hpos
  · cases h
  · split at h
    · next hmode =>
      split at h
      · obtain rfl := Except.ok.inj h
        rw [directions_length, (spec.twoWay (.inl hmode)).1]
        exact le_rfl
      · cases h
    · obtain rfl := Except.ok.inj h
      rw [directions_length]
      exact le_rfl

theorem trialDocument_length {spec : Rfc2544ThroughputSpec} {frameSize : Nat}
    {ratePercent durationSeconds : ℚ} {selected : Option Selected} {trial : StatelessTrafficSpec}
    (h : spec.trialDocument frameSize ratePercent durationSeconds selected = .ok trial) :
    trial.directions.length ≤ directionCount spec.ports.direction := by
  rw [Rfc2544ThroughputSpec.trialDocument, bind_eq_ok] at h
  obtain ⟨rate, -, h⟩ := h
  split at h
  · exact directedSpec_length h
  · cases h

/-- The trials of a document, also those with another packet, install at most as many streams as there
are ids, and their streams have the first of them. -/
def TrialsNumbered (engine : StlEngine) (session : StlSession) (spec : Rfc2544ThroughputSpec) : Prop :=
  ∀ other : Rfc2544ThroughputSpec, other.ports = spec.ports →
    ∀ frameSize ratePercent durationSeconds selected trial,
      other.trialDocument frameSize ratePercent durationSeconds selected = .ok trial →
      ∃ streams, trialStreams engine session trial = .ok streams ∧
        streams.length ≤ session.pgIds.length ∧
        streams.map InstalledStream.pgId = (session.pgIds.take streams.length).map some

theorem trialStreams_eq_ok {trial : StatelessTrafficSpec}
    (hlength : trial.directions.length ≤ session.pgIds.length) :
    ∃ streams, trialStreams engine session trial = .ok streams ∧
      streams.length ≤ session.pgIds.length ∧
      streams.map InstalledStream.pgId = (session.pgIds.take streams.length).map some := by
  have hnumbered := numberedFrom_zero hlength
  have hids : (trial.directions.zip session.pgIds).map Prod.snd =
      session.pgIds.take trial.directions.length := by
    rw [List.zip_eq_zip_take_min, Nat.min_eq_left hlength]
    exact List.map_snd_zip (by simp)
  have hstreams : trialStreams engine session trial = .ok
      ((trial.directions.zip session.pgIds).map fun item =>
        ⟨engine.portMapping item.1.tx, some item.2⟩) := by
    rw [trialStreams, numberedDirections, hnumbered]
    refine congrArg Except.ok ?_
    rw [installStreams, List.map_map]
    rfl
  refine ⟨_, hstreams, by simp, ?_⟩
  rw [List.length_map, List.length_zip, Nat.min_eq_left hlength, ← hids, List.map_map, List.map_map]
  rfl

theorem prepareRfc2544_trials (engine : StlEngine) (spec : Rfc2544ThroughputSpec) :
    TrialsNumbered engine (prepareRfc2544 engine spec) spec := by
  intro other hother frameSize ratePercent durationSeconds selected trial htrial
  have hlength := trialDocument_length htrial
  rw [hother] at hlength
  exact trialStreams_eq_ok (hlength.trans (length_pgIds _ _).ge)

/-- The ids of a document and its streams belong together: for stateless traffic, UDP workloads and
packet storms one to one, for RFC2544 in each trial; the streams of a replay have none. -/
def Accounted (engine : StlEngine) (session : StlSession) : StlDocument → Prop
  | .traffic (.stateless _) => Numbered session
  | .traffic (.throughput spec) => TrialsNumbered engine session spec
  | .traffic (.suite spec) => TrialsNumbered engine session spec.toRfc2544ThroughputSpec
  | .pcapReplay _ => ∀ stream ∈ session.streams, stream.pgId = none
  | .udpWorkload _ => Numbered session
  | .packetStorm _ => Numbered session

/-- A UDP workload has at most 3588 datagrams. -/
def Bounded (engine : StlEngine) : StlDocument → Prop
  | .udpWorkload spec => ∀ templates, udpTemplates engine spec = .ok templates →
      datagramCount templates ≤ 3588
  | _ => True

/-- What preparation allots to a document. -/
theorem prepare_eq_ok {doc : StlDocument} (h : prepare engine doc = .ok session)
    (hbounded : Bounded engine doc) :
    (∃ count ≤ 3588, Allotted engine doc session count ∧
      (doc.rfc2544?.isSome = true → 1 ≤ count ∧ count ≤ 2)) ∧ Accounted engine session doc := by
  match doc with
  | .traffic (.stateless spec) =>
    obtain ⟨⟨count, hcount, hallotted⟩, hnumbered⟩ := prepareStateless_eq_ok h
    exact ⟨⟨count, by omega, hallotted, by simp [StlDocument.rfc2544?]⟩, hnumbered⟩
  | .traffic (.throughput spec) =>
    obtain rfl := Except.ok.inj h
    obtain ⟨hpos, hle⟩ := directionCount_le spec.ports.direction
    exact ⟨⟨_, by omega, ⟨rfl, rfl⟩, fun _ => ⟨hpos, hle⟩⟩, prepareRfc2544_trials engine spec⟩
  | .traffic (.suite spec) =>
    obtain rfl := Except.ok.inj h
    obtain ⟨hpos, hle⟩ := directionCount_le spec.ports.direction
    exact ⟨⟨_, by omega, ⟨rfl, rfl⟩, fun _ => ⟨hpos, hle⟩⟩, prepareRfc2544_trials engine _⟩
  | .pcapReplay spec =>
    obtain ⟨file, -, h⟩ := bind_eq_ok.mp h
    obtain ⟨replay, -, h⟩ := bind_eq_ok.mp h
    obtain rfl := Except.ok.inj h
    obtain ⟨-, hle⟩ := directionCount_le spec.ports.direction
    refine ⟨⟨_, by omega, ⟨rfl, rfl⟩, by simp [StlDocument.rfc2544?]⟩, fun stream hstream => ?_⟩
    rw [List.eq_of_mem_replicate hstream]
  | .udpWorkload spec =>
    obtain ⟨⟨templates, htemplates, hallotted⟩, hnumbered⟩ := prepareUdp_eq_ok h
    exact ⟨⟨_, hbounded templates htemplates, hallotted, by simp [StlDocument.rfc2544?]⟩, hnumbered⟩
  | .packetStorm spec =>
    obtain ⟨hallotted, hnumbered⟩ := prepareStorm_eq_ok h
    exact ⟨⟨1, by decide, hallotted, by simp [StlDocument.rfc2544?]⟩, hnumbered⟩

theorem physicalPorts_ne_nil (engine : StlEngine) (doc : StlDocument) :
    engine.physicalPorts doc ≠ [] := by
  have hlogical : doc.logicalPorts ≠ [] := by
    match doc with
    | .traffic (.stateless spec) =>
      show spec.logicalPorts ≠ []
      unfold StatelessTrafficSpec.logicalPorts
      split
      · exact List.cons_ne_nil _ _
      · next hstreams =>
        obtain ⟨stream, streams, hcons⟩ := List.exists_cons_of_ne_nil hstreams
        rw [hcons, List.flatMap_cons]
        exact List.cons_ne_nil _ _
    | .traffic (.throughput _) => exact List.cons_ne_nil _ _
    | .traffic (.suite _) => exact List.cons_ne_nil _ _
    | .pcapReplay _ => exact List.cons_ne_nil _ _
    | .udpWorkload _ => exact List.cons_ne_nil _ _
    | .packetStorm _ => exact List.cons_ne_nil _ _
  exact List.map_eq_nil_iff.not.mpr hlogical

/-- The ids of a job are distinct and close to the first. -/
theorem statisticsIds_near {doc : StlDocument} (h : prepare engine doc = .ok session)
    (hbounded : Bounded engine doc) : (statisticsIds doc session).Nodup ∧
      ∀ id ∈ statisticsIds doc session, firstPgId session.ports ≤ id ∧
        id < firstPgId session.ports + 3588 := by
  obtain ⟨⟨count, hcount, hallotted, hrfc⟩, -⟩ := prepare_eq_ok h hbounded
  rw [statisticsIds, latencyPgId, hallotted.pgIds]
  split
  · next hsome =>
    obtain ⟨hpos, hle⟩ := hrfc hsome
    rw [max?_pgIds hpos, Option.getD_some]
    constructor
    · refine List.nodup_append.mpr ⟨nodup_pgIds _ _, List.nodup_singleton _, ?_⟩
      intro id hid other hother
      have hmem := mem_pgIds.mp hid
      rw [List.mem_singleton] at hother
      omega
    · intro id hid
      rw [List.mem_append, List.mem_singleton, mem_pgIds] at hid
      omega
  · refine ⟨nodup_pgIds _ _, fun id hid => ?_⟩
    have hmem := mem_pgIds.mp hid
    omega

end Session

/-- Jobs on ports apart from each other have ids apart from each other, and the ids of each job are
distinct and accounted for. -/
theorem pgIds_disjoint {engine : StlEngine} {jobs : List (StlDocument × StlSession)}
    (hprepared : ∀ job ∈ jobs, prepare engine job.1 = .ok job.2)
    (hports : ∀ job ∈ jobs, ∀ port ∈ job.2.ports, port ≤ 255)
    (hapart : jobs.Pairwise fun job other => job.2.ports.Disjoint other.2.ports)
    (hbounded : ∀ job ∈ jobs, Bounded engine job.1) :
    (jobs.Pairwise fun job other =>
      (statisticsIds job.1 job.2).Disjoint (statisticsIds other.1 other.2)) ∧
      ∀ job ∈ jobs, (statisticsIds job.1 job.2).Nodup ∧ Accounted engine job.2 job.1 := by
  have hnear := fun job hjob => statisticsIds_near (hprepared job hjob) (hbounded job hjob)
  have hne : ∀ job ∈ jobs, job.2.ports ≠ [] := by
    intro job hjob
    obtain ⟨⟨_, -, hallotted, -⟩, -⟩ := prepare_eq_ok (hprepared job hjob) (hbounded job hjob)
    rw [hallotted.ports]
    exact physicalPorts_ne_nil engine job.1
  refine ⟨hapart.imp_of_mem fun {job other} hjob hother hdisjoint id hid hid' => ?_,
    fun job hjob => ⟨(hnear job hjob).1, (prepare_eq_ok (hprepared job hjob) (hbounded job hjob)).2⟩⟩
  have hbetween := (hnear job hjob).2 id hid
  have hbetween' := (hnear other hother).2 id hid'
  have := firstPgId_apart (hne job hjob) (hne other hother) (hports job hjob) (hports other hother)
    hdisjoint
  omega

/-! ### A workload that runs into another -/

/-- A flow of 256 datagrams. -/
def labFlow : DatagramTemplate :=
  ⟨zeroDigest, zeroDigest, 5000, 53, List.replicate 256 ⟨true, 0, [1, 2, 3, 4]⟩⟩

theorem length_labFlow : labFlow.datagrams.length = 256 := List.length_replicate

/-- An engine whose captures all hold that flow, or two ARP requests. -/
def labEngine : StlEngine where
  captureRoot := some fun _ => some
    { size := 100
      datagramTemplate := fun _ => .ok labFlow
      sessionTemplate := fun _ => .error "no session" }
  portMapping := id
  dataPathThreads := 1
  replayRoot := some fun _ => some ⟨140, .ok [(0, arpRequest), (0, arpRequest)]⟩
  dpkt := arpDpkt
  remoteRoot := false
  loadPcap replay := replay.packets.length

/-- A binding of the flow, of which there are `n` alike. -/
def labBinding (n : Nat) (hpos : 1 ≤ n) : DatagramTemplateBinding where
  id := "udptemplate_000000000000000000000000"
  digest := zeroDigest
  representativeFlow :=
    ⟨"udpflow_000000000000000000000000", zeroDigest, 5000, 53, 256, 256, 0, 1024, 0, 0, 21504⟩
  occurrenceCount := 1
  weight := 1 / n
  fps := 1 / n
  valid := by
    have hn : (1 : ℚ) ≤ n := by exact_mod_cast hpos
    refine ⟨le_rfl, by positivity, ?_, by positivity⟩
    rw [div_le_one (by positivity)]
    exact hn

/-- A workload of `n` templates between two ports. -/
def labWorkload (initiator responder : PortId) (n : Nat) (hpos : 1 ≤ n) (hle : n ≤ 256) :
    UdpWorkloadSpec where
  limits := ⟨300000, 28800000, Lab.limits_pos⟩
  capture :=
    { name := "dns", revision := 1, digest := zeroDigest, size := 100, packetCount := 256
      durationSeconds := 0, normalizedDurationSeconds := 0, nonMonotonicTimestampCount := 0
      maximumBackwardJumpSeconds := 0, macEndpoints := [], ipv4Endpoints := []
      hasBroadcast := false, hasMulticast := false, valid := Lab.capture_valid }
  workload :=
    { sourceFlowCount := n, templateCount := n
      templates := List.replicate n (labBinding n hpos)
      bounded := by simpa using ⟨hpos, hle⟩
      countConsistent := by simp
      flowsConsistent := by simp [labBinding]
      weightsConsistent := by
        have hn : (n : ℚ) ≠ 0 := by
          have : 0 < n := hpos
          positivity
        simp [labBinding, hn] }
  initiator := ⟨initiator, "02:00:00:00:00:01", ⟨some ⟨.v4, 0xC6120001, Lab.client_lt⟩, true⟩⟩
  responder := ⟨responder, "02:00:00:00:00:02", ⟨some ⟨.v4, 0xC6120002, Lab.server_lt⟩, true⟩⟩
  run := ⟨1, 256, 172032, 1000, by norm_num, by norm_num, by norm_num, by decide⟩

/-- A policy of a thousand packets in a second, with the field for storms. -/
def labPolicy : StormPolicy := { kilohertzPolicy with allowBroadcastStorms := false }

theorem labWorkload_accepted {initiator responder : PortId} {n : Nat} (hpos : 1 ≤ n) (hle : n ≤ 256)
    (hinitiator : initiator ∈ [0, 1, 2, 255]) (hresponder : responder ∈ [0, 1, 2, 255]) :
    (StlDocument.udpWorkload (labWorkload initiator responder n hpos hle)).validate [0, 1, 2, 255]
      labPolicy = .ok () := by
  simp only [StlDocument.validate, validateUdpWorkload, checkPorts, check_bind_eq_ok, require_eq_ok]
  have hduration : (1000 : Nat) ≤ kilohertzPolicy.maxRunDuration := by decide
  refine ⟨rfl, ?_, hduration, ?_, ?_, fun mac _ => ?_, rfl⟩
  · intro port hport
    rcases List.mem_pair.mp hport with rfl | rfl
    · exact hinitiator
    · exact hresponder
  · norm_num [labWorkload, labPolicy, kilohertzPolicy]
  · norm_num [labWorkload, labPolicy, kilohertzPolicy]
  · simp [SafetyPolicy.allowsMacText, labPolicy, kilohertzPolicy]

theorem labWorkload_templates {initiator responder : PortId} {n : Nat} (hpos : 1 ≤ n) (hle : n ≤ 256) :
    ∃ templates, udpTemplates labEngine (labWorkload initiator responder n hpos hle) = .ok templates ∧
      datagramCount templates = n * 256 := by
  have hreplicate : ∀ {α β : Type} {R : α → β → Prop} {a : α} {b : β}, R a b → ∀ k,
      List.Forall₂ R (List.replicate k a) (List.replicate k b) := by
    intro α β R a b h k
    induction k with
    | zero => exact .nil
    | succ k ih => exact .cons h ih
  refine ⟨List.replicate n (labBinding n hpos, labFlow), ?_, ?_⟩
  · refine bind_eq_ok.mpr ⟨_, rfl, mapM_eq_ok.mpr ?_⟩
    exact hreplicate (by rfl) n
  · rw [datagramCount, List.map_replicate, List.sum_replicate, length_labFlow]
    rfl

/-- The session of a workload of `n` templates. -/
theorem labWorkload_prepared {initiator responder : PortId} {n : Nat} (hpos : 1 ≤ n) (hle : n ≤ 256) :
    ∃ session, prepare labEngine (.udpWorkload (labWorkload initiator responder n hpos hle)) =
        .ok session ∧ session.ports = [initiator, responder] ∧
      session.pgIds = pgIds [initiator, responder] (n * 256) := by
  obtain ⟨templates, htemplates, hcount⟩ := @labWorkload_templates initiator responder n hpos hle
  have hlength := @length_udpStreams labEngine templates (labWorkload initiator responder n hpos hle)
  obtain ⟨session, hsession⟩ : ∃ session,
      prepareUdp labEngine (labWorkload initiator responder n hpos hle) = .ok session := by
    exact ⟨_, bind_eq_ok.mpr ⟨_, htemplates, bind_eq_ok.mpr
      ⟨_, numberedFrom_zero (hlength.le.trans (length_pgIds _ _).ge), rfl⟩⟩⟩
  obtain ⟨⟨templates', htemplates', hallotted⟩, -⟩ := prepareUdp_eq_ok hsession
  obtain rfl := Except.ok.inj (htemplates.symm.trans htemplates')
  refine ⟨session, hsession, hallotted.ports, ?_⟩
  rw [hallotted.pgIds, hallotted.ports, hcount]
  rfl

/-- A suite on the ports 0 and 1, with its latency id, beside a workload on the ports 2 and 255. -/
theorem pgIds_disjoint_lab : ∃ session,
    prepare labEngine (.udpWorkload (labWorkload 2 255 1 (by decide) (by decide))) = .ok session ∧
      [3, 131].Disjoint (statisticsIds (.udpWorkload (labWorkload 2 255 1 (by decide) (by decide)))
        session) := by
  obtain ⟨session, hsession, hports, -⟩ := @labWorkload_prepared 2 255 1 (by decide) (by decide)
  obtain ⟨templates, htemplates, hcount⟩ := @labWorkload_templates 2 255 1 (by decide) (by decide)
  have hdisjoint := (@pgIds_disjoint labEngine
    [(.traffic (.suite throughputSuite), prepareRfc2544 labEngine throughputSuite.toRfc2544ThroughputSpec),
      (.udpWorkload (labWorkload 2 255 1 (by decide) (by decide)), session)] ?_ ?_ ?_ ?_).1
  · exact ⟨session, hsession, (List.pairwise_cons.mp hdisjoint).1 _ List.mem_cons_self⟩
  · intro job hjob
    rcases List.mem_pair.mp hjob with rfl | rfl
    · rfl
    · exact hsession
  · intro job hjob port hport
    rcases List.mem_pair.mp hjob with rfl | rfl
    · revert port
      decide
    · rw [hports] at hport
      revert port
      decide
  · refine List.pairwise_pair.mpr ?_
    rw [hports]
    intro port hport hport'
    revert port
    decide
  · intro job hjob
    rcases List.mem_pair.mp hjob with rfl | rfl
    · trivial
    · intro templates' htemplates'
      obtain rfl := Except.ok.inj (htemplates.symm.trans htemplates')
      rw [hcount]
      decide

/-- A replay of two requests. -/
def twoRequests : PcapReplaySpec :=
  { arpReplay with capture := { arpReplay.capture with size := 140, packetCount := 2, valid := by decide } }

theorem twoRequests_accepted :
    (StlDocument.pcapReplay twoRequests).validate [0, 1, 2, 255] labPolicy = .ok () := by
  have hestimate : replayEstimate labPolicy.toSafetyPolicy twoRequests = .ok (2 / 1) := by
    rw [replayEstimate]
    refine check_bind_eq_ok.mpr ⟨require_eq_ok.mpr ?_, rfl⟩
    norm_num [labPolicy, kilohertzPolicy, SafetyPolicy.rateCeiling]
  have hduration : checkDuration labPolicy.toSafetyPolicy twoRequests = .ok () := by
    refine bind_eq_ok.mpr ⟨2 / 1, hestimate, require_eq_ok.mpr ?_⟩
    norm_num [labPolicy, kilohertzPolicy]
  simp only [StlDocument.validate, validateReplay, check_bind_eq_ok]
  exact ⟨rfl, hduration, rfl, rfl, rfl, rfl⟩

/-- A workload of 3840 datagrams on the ports 0 and 255 has ids of one on the ports 1 and 2; a replay of
two packets has two streams and one id. -/
theorem pgIds_clash :
    (∃ first second sessionA sessionB,
      first.validate [0, 1, 2, 255] labPolicy = .ok () ∧
      second.validate [0, 1, 2, 255] labPolicy = .ok () ∧
      prepare labEngine first = .ok sessionA ∧ prepare labEngine second = .ok sessionB ∧
      sessionA.ports = [0, 255] ∧ sessionB.ports = [1, 2] ∧
      4101 ∈ statisticsIds first sessionA ∧ 4101 ∈ statisticsIds second sessionB) ∧
    ∃ session, (StlDocument.pcapReplay twoRequests).validate [0, 1, 2, 255] labPolicy = .ok () ∧
      prepare labEngine (.pcapReplay twoRequests) = .ok session ∧
      session.pgIds.length = 1 ∧ session.streams.length = 2 := by
  obtain ⟨sessionA, hA, hportsA, hidsA⟩ := @labWorkload_prepared 0 255 15 (by decide) (by decide)
  obtain ⟨sessionB, hB, hportsB, hidsB⟩ := @labWorkload_prepared 1 2 1 (by decide) (by decide)
  refine ⟨⟨.udpWorkload (labWorkload 0 255 15 (by decide) (by decide)),
    .udpWorkload (labWorkload 1 2 1 (by decide) (by decide)), sessionA, sessionB,
    labWorkload_accepted _ _ (by decide) (by decide), labWorkload_accepted _ _ (by decide) (by decide),
    hA, hB, hportsA, hportsB, ?_, ?_⟩, _, twoRequests_accepted, rfl, rfl, rfl⟩
  · show 4101 ∈ sessionA.pgIds
    rw [hidsA, mem_pgIds]
    decide
  · show 4101 ∈ sessionB.pgIds
    rw [hidsB, mem_pgIds]
    decide

end TrexCli.PgIds
