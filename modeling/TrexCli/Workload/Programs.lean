import TrexCli.Capture.Reassembly
import TrexCli.Lib.Dialogue
import TrexCli.Workload.Planning
import TrexCli.Workload.ServerRanges

/-!
# The programs of a stateful replay

`extract_session_template` of `session_analysis.py` and `_build_profile` of `astf_adapter.py`: each
template of a replay becomes a program of its client and one of its server. TRex answers a connection
with the program of the server template whose association rule has its address and port, and runs the
two programs over TCP. So each connection acts out the exchanges of the captured session that the plan
names, and none of another one (`stateful_replay_faithful`).
-/

namespace TrexCli

open Dialogue (Party Command Script project said Acts)

/-! ### Extraction -/

/-- The text of what an analysis raises; of a class that refuses its fields, its name. -/
def Capture.AnalysisError.text : Capture.AnalysisError → String
  | .validation title => title
  | .overflow => "int too big to convert"

/-- An exchange of the analyzer, as a template has it. -/
def sessionExchange (e : Capture.Exchange) : Bool × List UInt8 := (decide (e.1 = .client), e.2)

section

variable (sha256 : Bytes → Capture.Digest)

/-- The loop of `template`. -/
def namedTemplate (sessionId : String) : List Capture.SessionFlow → Except String SessionTemplate
  | [] => .error ("capture has no session " ++ sessionId)
  | flow :: rest =>
    match flow.session sha256 with
    | .error e => .error e.text
    | .ok session =>
      if idText "session_" session.id = sessionId then
        if session.reconstructible then
          match flow.templateDigest sha256 with
          | .error e => .error e.text
          | .ok digest => .ok
            { digest := digestText session.digest
              templateDigest := digestText digest
              exchanges := flow.exchanges.map sessionExchange }
        else .error ("session is not reconstructible: " ++ ", ".intercalate session.issues)
      else namedTemplate sessionId rest

/-- The analyzer after `extract_session_template` has scanned the packets. -/
def extractionScan (packets : List Capture.Packet) : Capture.StatefulSessionAnalyzer :=
  .scan { maximumReportedSessions := 0 } packets

/-- `extract_session_template`, of what is read from the file. -/
def extractSessionTemplate (contents : Except String (List Capture.Packet)) (sessionId : String) :
    Except String SessionTemplate := do
  let packets ← contents
  namedTemplate sha256 sessionId (extractionScan packets).allFlows

end

/-! ### The profile -/

/-- `ASTFIPGen`: the ranges that addresses are drawn from in sequence. -/
structure IpGenerator where
  ipOffset : String
  clientRange : Nat × Nat
  serverRange : Option IpAddress × Option IpAddress

/-- `ASTFTCPClientTemplate` -/
structure ClientTemplate where
  program : List (Command UInt8)
  ipGen : IpGenerator
  port : Nat
  cps : ℚ
  limit : Nat
  cont : Bool

/-- `ASTFTCPServerTemplate`, with its association rule. -/
structure ServerTemplate where
  program : List (Command UInt8)
  port : Nat
  ipStart : Option IpAddress
  ipEnd : Option IpAddress

/-- `ASTFTemplate` -/
structure AstfTemplate where
  client : ClientTemplate
  server : ServerTemplate
  tgName : Option String

/-- `ASTFProfile` -/
structure AstfProfile where
  defaultIpGen : IpGenerator
  templates : List AstfTemplate

/-- The loop body over the exchanges, on the programs of the client and of the server. -/
def addExchange (programs : List (Command UInt8) × List (Command UInt8))
    (exchange : Bool × List UInt8) : List (Command UInt8) × List (Command UInt8) :=
  if exchange.1 then
    (programs.1 ++ [.send exchange.2], programs.2 ++ [.recv exchange.2.length])
  else
    (programs.1 ++ [.recv exchange.2.length], programs.2 ++ [.send exchange.2])

section

variable (spec : StatefulReplaySpec)

/-- `removeprefix` -/
def removePrefix (word text : List Char) : List Char :=
  if word <+: text then text.drop word.length else text

/-- The traffic group of a template: a single session has none. -/
def trafficGroup (t : PreparedTemplate) : Option String :=
  match spec.shape with
  | .session _ => none
  | .workload _ => some ("tg_" ++ String.ofList ((removePrefix "template_".toList t.id.toList).take 16))

/-- The generator of a template. -/
def ipGenerator (t : RangedTemplate) : IpGenerator where
  ipOffset := "1.0.0.0"
  clientRange := (spec.client.ipv4Pool.first, spec.client.ipv4Pool.last)
  serverRange := (t.serverIpStart, t.serverIpEnd)

/-- The loop body of `_build_profile`. -/
def astfTemplate (t : RangedTemplate) : AstfTemplate :=
  let programs := t.capture.exchanges.foldl addExchange ([], [])
  { client :=
      { program := programs.1
        ipGen := ipGenerator spec t
        port := t.serverPort
        cps := t.cps
        limit := t.maxActiveConnections
        cont := true }
    server :=
      { program := programs.2
        port := t.serverPort
        ipStart := t.serverIpStart
        ipEnd := t.serverIpEnd }
    tgName := trafficGroup spec t.toPreparedTemplate }

/-- `_build_profile` -/
def buildProfile (templates : List RangedTemplate) : Except Exc AstfProfile :=
  match templates with
  | [] => .error (.exception "list index out of range")
  | t :: _ => .ok ⟨ipGenerator spec t, templates.map (astfTemplate spec)⟩

/-- What `_prepare_sync` loads for the templates of `_validate_sync`. -/
def loadedProfile (engine : WorkloadEngine) (prepared : List PreparedTemplate) :
    Except Exc AstfProfile :=
  let (result, templates) := (assignServerRanges spec.server.ipv4Pool engine.dataPathThreads).run.run
    (prepared.map PreparedTemplate.unassigned)
  result.bind fun _ => buildProfile spec templates

end

/-! ### Programs -/

/-- A direction of the exchanges, as a party of a dialogue. -/
def exchangeParty (fromClient : Bool) : Party := if fromClient then .caller else .callee

/-- The exchanges as a script. -/
def exchangeScript (exchanges : List (Bool × List UInt8)) : Script UInt8 :=
  exchanges.map fun e => (exchangeParty e.1, e.2)

theorem foldl_addExchange (exchanges : List (Bool × List UInt8))
    (programs : List (Command UInt8) × List (Command UInt8)) :
    exchanges.foldl addExchange programs =
      (programs.1 ++ project .caller (exchangeScript exchanges),
        programs.2 ++ project .callee (exchangeScript exchanges)) := by
  induction exchanges generalizing programs with
  | nil => simp [exchangeScript, project]
  | cons e rest ih =>
    obtain ⟨fromClient, payload⟩ := e
    rw [List.foldl_cons, ih]
    cases fromClient <;>
      simp [addExchange, exchangeScript, project, exchangeParty, Dialogue.command]

/-- The programs of a template act out its exchanges. -/
theorem acts_astfTemplate (spec : StatefulReplaySpec) (t : RangedTemplate) :
    Acts (exchangeScript t.capture.exchanges) (astfTemplate spec t).client.program
      (astfTemplate spec t).server.program := by
  simp only [astfTemplate, foldl_addExchange, List.nil_append]
  exact Dialogue.acts_project _

/-! ### Connections -/

/-- A client draws a server address from its range. -/
def ClientTemplate.Reaches (client : ClientTemplate) (address : Nat) : Prop :=
  ∃ first last, client.ipGen.serverRange = (some first, some last) ∧
    address ∈ Finset.Icc first.value last.value

/-- The association rule of a server has an address and a port. -/
def ServerTemplate.Accepts (server : ServerTemplate) (address port : Nat) : Prop :=
  port = server.port ∧ ∃ first last, server.ipStart = some first ∧ server.ipEnd = some last ∧
    address ∈ Finset.Icc first.value last.value

section

variable {spec : StatefulReplaySpec}

theorem mem_range_iff {t : RangedTemplate} {address : Nat} :
    address ∈ t.range ↔ ∃ first last, t.serverIpStart = some first ∧ t.serverIpEnd = some last ∧
      address ∈ Finset.Icc first.value last.value := by
  unfold RangedTemplate.range
  split
  · rename_i first last hfirst hlast
    rw [hfirst, hlast]
    simp
  · rename_i hnone
    simp only [Finset.notMem_empty, false_iff]
    rintro ⟨first, last, hfirst, hlast, -⟩
    exact hnone first last hfirst hlast

theorem reaches_iff {t : RangedTemplate} {address : Nat} :
    (astfTemplate spec t).client.Reaches address ↔ address ∈ t.range := by
  rw [mem_range_iff]
  simp only [ClientTemplate.Reaches, astfTemplate, ipGenerator, Prod.mk.injEq, and_assoc]

theorem accepts_iff {t : RangedTemplate} {address port : Nat} :
    (astfTemplate spec t).server.Accepts address port ↔ port = t.serverPort ∧ address ∈ t.range := by
  rw [mem_range_iff]
  rfl

/-- The `i`-th template of a profile draws server addresses, all from the pool, and a connection to one
of them is answered by its own server and by no other. -/
structure Connected (pool : Ipv4Pool) (profile : AstfProfile) (i : Nat) (a : AstfTemplate) : Prop where
  draws : ∃ address, a.client.Reaches address
  pooled : ∀ address, a.client.Reaches address → address ∈ Finset.Icc pool.first pool.last
  answered : ∀ address, a.client.Reaches address → ∀ (j : Nat) (b : AstfTemplate),
    profile.templates[j]? = some b → (b.server.Accepts address a.client.port ↔ j = i)

/-- The ranges at two positions do not meet, if the templates there have one port. -/
theorem disjoint_of_ne {pool : Ipv4Pool} {threads : Nat} {templates : List RangedTemplate}
    (hfits : Disambiguates pool threads templates) {i j : Nat} {t u : RangedTemplate}
    (ht : (rangedTemplates pool threads templates)[i]? = some t)
    (hu : (rangedTemplates pool threads templates)[j]? = some u) (hport : t.serverPort = u.serverPort)
    (hne : i ≠ j) : Disjoint t.range u.range := by
  have hpairwise := List.pairwise_iff_getElem.mp (pairwise_disjoint hfits)
  obtain ⟨hi, rfl⟩ := List.getElem?_eq_some_iff.mp ht
  obtain ⟨hj, rfl⟩ := List.getElem?_eq_some_iff.mp hu
  rcases Nat.lt_or_gt_of_ne hne with hlt | hlt
  · exact hpairwise i j hi hj hlt hport
  · exact (hpairwise j i hj hi hlt hport.symm).symm

/-- A profile is loaded for templates that the pool has enough addresses for; its templates are theirs,
and connected. -/
theorem loadedProfile_connected {engine : WorkloadEngine} {prepared : List PreparedTemplate}
    (hfits : Disambiguates spec.server.ipv4Pool engine.dataPathThreads
      (prepared.map PreparedTemplate.unassigned)) (hne : prepared ≠ []) :
    ∃ profile, loadedProfile spec engine prepared = .ok profile ∧
      ∀ (i : Nat) (t : PreparedTemplate), prepared[i]? = some t → ∃ t' : RangedTemplate,
        t'.toPreparedTemplate = t ∧ profile.templates[i]? = some (astfTemplate spec t') ∧
          Connected spec.server.ipv4Pool profile i (astfTemplate spec t') := by
  have hne' : prepared.map PreparedTemplate.unassigned ≠ [] := by simpa using hne
  obtain ⟨-, hrun⟩ := (assignServerRanges_run spec.server.ipv4Pool engine.dataPathThreads
    hne').resolve_right fun h => h.1 hfits
  have hbuild : ∃ gen, loadedProfile spec engine prepared = .ok ⟨gen,
      (rangedTemplates spec.server.ipv4Pool engine.dataPathThreads
        (prepared.map PreparedTemplate.unassigned)).map (astfTemplate spec)⟩ := by
    have hranged : rangedTemplates spec.server.ipv4Pool engine.dataPathThreads
        (prepared.map PreparedTemplate.unassigned) ≠ [] := by
      rwa [← List.length_pos_iff, length_rangedTemplates, List.length_pos_iff]
    obtain ⟨t, rest, hcons⟩ := List.exists_cons_of_ne_nil hranged
    rw [loadedProfile, hrun, hcons]
    exact ⟨_, rfl⟩
  obtain ⟨gen, hprofile⟩ := hbuild
  refine ⟨_, hprofile, fun i t ht => ?_⟩
  have ht' : (prepared.map PreparedTemplate.unassigned)[i]? = some t.unassigned := by
    rw [List.getElem?_map, ht]
    rfl
  obtain ⟨-, -, -, k, -, t', hranged, hsame, hrange, hlast⟩ := ranged_facts hfits ht'
  refine ⟨t', hsame, ?_, ⟨spec.server.ipv4Pool.first + k * (engine.dataPathThreads + 1), ?_⟩, ?_, ?_⟩
  · rw [List.getElem?_map, hranged]
    rfl
  · rw [reaches_iff, hrange, Finset.mem_Icc]
    omega
  · intro address hreaches
    rw [reaches_iff, hrange] at hreaches
    exact Finset.Icc_subset_Icc (Nat.le_add_right _ _) hlast hreaches
  · intro address hreaches j b hb
    rw [reaches_iff] at hreaches
    rw [List.getElem?_map, Option.map_eq_some_iff] at hb
    obtain ⟨u, hu, rfl⟩ := hb
    rw [accepts_iff]
    constructor
    · rintro ⟨hport, haddress⟩
      by_contra hne
      exact Finset.disjoint_left.mp (disjoint_of_ne hfits hu hranged hport.symm hne) haddress hreaches
    · rintro rfl
      obtain rfl := Option.some.inj (hu.symm.trans hranged)
      exact ⟨rfl, hreaches⟩

end

/-! ### Sessions -/

/-- The sessions that a plan names. -/
def ReplayShape.sessions : ReplayShape → List SessionBinding
  | .session binding => [binding]
  | .workload binding => binding.templates.map SessionTemplateBinding.representativeSession

/-- A template was made of the session that the plan names. -/
structure Represents (capture : CaptureObject) (binding : SessionBinding) (t : PreparedTemplate) :
    Prop where
  extracted : capture.sessionTemplate binding.id = .ok t.capture
  digest : t.capture.digest = binding.digest
  serverPort : t.serverPort = binding.serverPort

theorem represents_of_sessionTemplate {capture : CaptureObject} {run : StatefulReplayRun}
    {binding : SessionBinding} {t : PreparedTemplate} (h : sessionTemplate capture run binding = .ok t) :
    Represents capture binding t := by
  unfold sessionTemplate at h
  split at h
  · cases h
  · rename_i template htemplate
    simp only [check_bind_eq_ok, require_eq_ok] at h
    obtain ⟨hdigest, h⟩ := h
    cases h
    exact ⟨htemplate, hdigest, rfl⟩

theorem represents_of_preparedTemplate {capture : CaptureObject} {binding : SessionTemplateBinding}
    {t : PreparedTemplate} (h : preparedTemplate capture binding = .ok t) :
    Represents capture binding.representativeSession t := by
  unfold preparedTemplate at h
  split at h
  · cases h
  · rename_i template htemplate
    simp only [check_bind_eq_ok, require_eq_ok] at h
    obtain ⟨hdigest, -, h⟩ := h
    cases h
    exact ⟨htemplate, hdigest, rfl⟩

/-- A prepared replay has a template for each session that the plan names. -/
theorem represents_of_prepared {engine : WorkloadEngine} {spec : StatefulReplaySpec}
    {prepared : List PreparedTemplate} (h : prepareStatefulReplay engine spec = .ok prepared) :
    ∃ capture, engine.stored spec.capture = some capture ∧
      List.Forall₂ (Represents capture) spec.shape.sessions prepared := by
  unfold prepareStatefulReplay at h
  obtain ⟨capture, hcapture, h⟩ := bind_eq_ok.mp h
  obtain ⟨templates, htemplates, h⟩ := bind_eq_ok.mp h
  simp only [check_bind_eq_ok] at h
  obtain ⟨-, -, -, -, h⟩ := h
  cases h
  refine ⟨capture, openCapture_eq_ok hcapture, ?_⟩
  unfold preparedTemplates at htemplates
  split at htemplates
  · rename_i session hshape
    obtain ⟨t, ht, htemplates⟩ := bind_eq_ok.mp htemplates
    cases htemplates
    rw [hshape]
    exact .cons (represents_of_sessionTemplate ht) .nil
  · rename_i workload hshape
    rw [hshape]
    exact List.forall₂_map_left_iff.mpr
      ((mapM_eq_ok.mp htemplates).imp fun _ _ => represents_of_preparedTemplate)

theorem sessions_ne_nil (shape : ReplayShape) : shape.sessions ≠ [] := by
  cases shape with
  | session binding => exact List.cons_ne_nil _ _
  | workload binding =>
    have hbounded := binding.bounded.1
    rw [ReplayShape.sessions, Ne, List.map_eq_nil_iff, ← List.length_eq_zero_iff]
    omega

/-- What an extracted template has the exchanges of. -/
theorem namedTemplate_ok {sha256 : Bytes → Capture.Digest} {sessionId : String}
    {flows : List Capture.SessionFlow} {template : SessionTemplate}
    (h : namedTemplate sha256 sessionId flows = .ok template) :
    ∃ flow ∈ flows, ∃ session, flow.session sha256 = .ok session ∧ session.reconstructible = true ∧
      idText "session_" session.id = sessionId ∧ template.digest = digestText session.digest ∧
      template.exchanges = flow.exchanges.map sessionExchange := by
  induction flows with
  | nil => cases h
  | cons flow rest ih =>
    unfold namedTemplate at h
    split at h
    · cases h
    · rename_i session hsession
      split_ifs at h with hid hreconstructible
      · split at h
        · cases h
        · cases h
          exact ⟨flow, List.mem_cons_self, session, hsession, hreconstructible, hid, rfl, rfl⟩
      · obtain ⟨flow', hflow', hrest⟩ := ih h
        exact ⟨flow', List.mem_cons_of_mem _ hflow', hrest⟩

/-! ### Faithful replays -/

/-- A side of a session, as a party of a dialogue. -/
def Capture.Side.party : Capture.Side → Party
  | .client => .caller
  | .server => .callee

/-- A captured session as a script. -/
def Capture.SessionFlow.script (flow : Capture.SessionFlow) : Script UInt8 :=
  flow.exchanges.map fun e => (e.1.party, e.2)

theorem exchangeScript_sessionExchange (flow : Capture.SessionFlow) :
    exchangeScript (flow.exchanges.map sessionExchange) = flow.script := by
  rw [exchangeScript, List.map_map]
  refine List.map_congr_left fun e _ => ?_
  obtain ⟨side, payload⟩ := e
  cases side <;> rfl

theorem said_script (flow : Capture.SessionFlow) (side : Capture.Side) :
    said side.party flow.script = Capture.sideBytes side flow.exchanges := by
  unfold Capture.SessionFlow.script Capture.sideBytes
  induction flow.exchanges with
  | nil => rfl
  | cons e rest ih =>
    obtain ⟨side', payload⟩ := e
    rw [List.map_cons, ← List.singleton_append, Dialogue.said_append, Dialogue.said_singleton, ih]
    cases side <;> cases side' <;> simp [Capture.Side.party]

/-- Two programs replay a captured session: they act out its script, in which each side says the
payloads of its segments, a block of the segments between the endpoints of the session, whose sequence
numbers follow on from the segment that opened the side. -/
structure Replayed (packets : List Capture.Packet) (flow : Capture.SessionFlow) (a : AstfTemplate) :
    Prop where
  acts : Acts flow.script a.client.program a.server.program
  captured : ∃ segments, segments <:+: Capture.segmentsOf flow.key packets ∧
    Capture.MadeOf flow.exchanges (flow.sided segments) ∧
    ∀ side, said (Capture.Side.party side) flow.script = (Capture.Segment.sent side
      (Capture.Segment.payloads (flow.sided segments))).flatMap fun tcp => tcp.data.octets

theorem replayed_of_template {sha256 : Bytes → Capture.Digest} {packets : List Capture.Packet}
    (spec : StatefulReplaySpec) {sessionId : String} {t : RangedTemplate}
    (hkeeps : ∀ before packet after, packets = before ++ packet :: after →
      Capture.KeepsSequence (extractionScan before) packet)
    (h : extractSessionTemplate sha256 (.ok packets) sessionId = .ok t.capture) :
    ∃ flow ∈ (extractionScan packets).allFlows, ∃ session, flow.session sha256 = .ok session ∧
      idText "session_" session.id = sessionId ∧ t.capture.digest = digestText session.digest ∧
      Replayed packets flow (astfTemplate spec t) := by
  obtain ⟨flow, hflow, session, hsession, hreconstructible, hid, hdigest, hexchanges⟩ :=
    namedTemplate_ok h
  refine ⟨flow, hflow, session, hsession, hid, hdigest, ?_, ?_⟩
  · have hacts := acts_astfTemplate spec t
    rwa [hexchanges, exchangeScript_sessionExchange] at hacts
  · have hlogged := Capture.logged_scan _ packets hkeeps
    rw [Capture.SessionFlow.allIssues_of_session hsession, List.isEmpty_iff] at hreconstructible
    obtain ⟨segments, hinfix, hmade⟩ : Capture.SoundSession packets flow := by
      rcases Capture.StatefulSessionAnalyzer.mem_allFlows.mp hflow with hcompleted | ⟨key, hcurrent⟩
      · obtain ⟨segments, hinfix, hhistory⟩ := hlogged.completed flow hcompleted
        exact ⟨segments, hinfix, hhistory.madeOf hreconstructible⟩
      · obtain ⟨hkey, segments, hsuffix, hhistory⟩ := hlogged.current _ hcurrent
        exact ⟨segments, hkey ▸ hsuffix.isInfix, hhistory.madeOf hreconstructible⟩
    refine ⟨segments, hinfix, hmade, fun side => ?_⟩
    rw [said_script, hmade.bytes side]

/-- A prepared stateful replay loads a profile in which each session that the plan names has a template
of its own: a connection that its client opens is answered by its server and by no other, and the two
programs replay the captured session. It is the one with the plan's digest, and its capture has no
SYN-ACK that moves the sequence counter of a server that sent data. -/
theorem stateful_replay_faithful (sha256 : Bytes → Capture.Digest) {engine : WorkloadEngine}
    {spec : StatefulReplaySpec} {prepared : List PreparedTemplate} {capture : CaptureObject}
    {packets : List Capture.Packet} (h : prepareStatefulReplay engine spec = .ok prepared)
    (hcapture : engine.stored spec.capture = some capture)
    (hextract : capture.sessionTemplate = extractSessionTemplate sha256 (.ok packets))
    (hkeeps : ∀ before packet after, packets = before ++ packet :: after →
      Capture.KeepsSequence (extractionScan before) packet) :
    ∃ profile, loadedProfile spec engine prepared = .ok profile ∧
      ∀ (i : Nat) (binding : SessionBinding), spec.shape.sessions[i]? = some binding →
        ∃ a, profile.templates[i]? = some a ∧ a.client.port = binding.serverPort ∧
          Connected spec.server.ipv4Pool profile i a ∧
          ∃ flow ∈ (extractionScan packets).allFlows, ∃ session, flow.session sha256 = .ok session ∧
            idText "session_" session.id = binding.id ∧ digestText session.digest = binding.digest ∧
            Replayed packets flow a := by
  obtain ⟨capture', hcapture', hrepresents⟩ := represents_of_prepared h
  obtain rfl : capture = capture' := Option.some.inj (hcapture.symm.trans hcapture')
  have hne : prepared ≠ [] := by
    rw [← List.length_pos_iff, ← hrepresents.length_eq, List.length_pos_iff]
    exact sessions_ne_nil _
  obtain ⟨profile, hprofile, hconnected⟩ :=
    loadedProfile_connected (disambiguates_of_prepared h) hne
  refine ⟨profile, hprofile, fun i binding hbinding => ?_⟩
  obtain ⟨hi, rfl⟩ := List.getElem?_eq_some_iff.mp hbinding
  have hi' : i < prepared.length := hrepresents.length_eq ▸ hi
  have hrepresented := hrepresents.get hi hi'
  obtain ⟨t, hsame, hget, hconnects⟩ := hconnected i _ (List.getElem?_eq_getElem hi')
  rw [List.get_eq_getElem, List.get_eq_getElem, ← hsame] at hrepresented
  have hextracted := hrepresented.extracted
  rw [hextract] at hextracted
  obtain ⟨flow, hflow, session, hsession, hid, hdigest, hreplayed⟩ :=
    replayed_of_template spec hkeeps hextracted
  refine ⟨_, hget, hrepresented.serverPort, hconnects, flow, hflow, session, hsession, hid, ?_,
    hreplayed⟩
  rw [← hdigest]
  exact hrepresented.digest

/-- An engine whose capture is a session with a question and an answer. -/
def questionEngine : WorkloadEngine where
  captureRoot := some fun _ => some
    { size := 100
      datagramTemplate := fun _ => .error "no flow"
      sessionTemplate := extractSessionTemplate Capture.sampleHash (.ok Capture.shortSession) }
  portMapping := id
  dataPathThreads := 1

namespace Lab

theorem run_valid : (0 : ℚ) < 1 ∧ 1 ≤ 10 ∧ 0 < 1000 := by norm_num

theorem clients_le : 0xC6120001 ≤ 0xC612000A := by decide

theorem clients_lt : 0xC612000A < 2 ^ 32 := by decide

theorem servers_le : 0xC6130001 ≤ 0xC613000A := by decide

theorem servers_lt : 0xC613000A < 2 ^ 32 := by decide

theorem transport_valid : 1024 ≤ 1024 ∧ 1024 ≤ 65535 ∧ 65535 ≤ 65535 := by decide

end Lab

/-- The replay of that session. -/
def questionSpec : StatefulReplaySpec where
  limits := ⟨300000, 28800000, Lab.limits_pos⟩
  capture :=
    { name := "question", revision := 1, digest := zeroDigest, size := 100, packetCount := 4
      durationSeconds := 0, normalizedDurationSeconds := 0, nonMonotonicTimestampCount := 0
      maximumBackwardJumpSeconds := 0, macEndpoints := [], ipv4Endpoints := []
      hasBroadcast := false, hasMulticast := false, valid := Lab.capture_valid }
  shape := .session
    { id := "session_0a0000019c400a0000020050"
      digest := "sha256:0a0000019c400a00000200506300000000000000014173000000000000000141"
      serverPort := 80, clientPayloadBytes := 1, serverPayloadBytes := 1, exchangeCount := 2 }
  client := ⟨0, ⟨0xC6120001, 0xC612000A, Lab.clients_le, Lab.clients_lt⟩,
    ⟨1024, 65535, Lab.transport_valid⟩⟩
  server := ⟨1, ⟨0xC6130001, 0xC613000A, Lab.servers_le, Lab.servers_lt⟩⟩
  run := ⟨1, 10, 1000, Lab.run_valid⟩

theorem stateful_replay_faithful_question :
    ∃ prepared profile a flow, prepareStatefulReplay questionEngine questionSpec = .ok prepared ∧
      loadedProfile questionSpec questionEngine prepared = .ok profile ∧
      profile.templates[0]? = some a ∧ a.client.port = 80 ∧
      Connected questionSpec.server.ipv4Pool profile 0 a ∧ Replayed Capture.shortSession flow a := by
  have hok : (prepareStatefulReplay questionEngine questionSpec).isOk = true := by decide +kernel
  obtain ⟨prepared, hprepared⟩ : ∃ prepared, prepareStatefulReplay questionEngine questionSpec =
      .ok prepared := by
    cases hresult : prepareStatefulReplay questionEngine questionSpec with
    | error e =>
      rw [hresult] at hok
      cases hok
    | ok prepared => exact ⟨prepared, rfl⟩
  have hsilent : ∀ n < 4, ∀ item ∈ (extractionScan (Capture.shortSession.take n)).flows,
      item.2.serverPayloadBytes = 0 := by decide +kernel
  obtain ⟨profile, hprofile, hsessions⟩ := stateful_replay_faithful Capture.sampleHash hprepared rfl rfl
    fun before packet after heq => by
      have hbefore : before = Capture.shortSession.take before.length := by rw [heq, List.take_left]
      have hlength : before.length < 4 := by
        have htotal : Capture.shortSession.length = 4 := rfl
        rw [heq, List.length_append, List.length_cons] at htotal
        omega
      rw [hbefore]
      exact Capture.keepsSequence_of_silent (hsilent _ hlength) packet
  obtain ⟨a, ha, hport, hconnected, flow, -, -, -, -, -, hreplayed⟩ := hsessions 0 _ rfl
  exact ⟨prepared, profile, a, flow, hprepared, hprofile, ha, hport, hconnected, hreplayed⟩

end TrexCli
