import TrexCli.Storm.Documents
import TrexCli.Workload.Planning

/-!
# Planning a DNS storm

`plan_dns_storm` of `test_plan.py`, up to the file of the plan. A name that `normalize_dns_name` takes
is written in three places with limits of their own: the wire format, the pattern of a question and the
size of a frame. They agree, so that no plan is refused for its name.
-/

namespace TrexCli.Storm

open Dns

/-- What the classes of a document report. -/
inductive DnsFault where
  | limits | sourcePorts | questionName | pps | wireSize | estimatedBpsL1 | duration
  | rateInconsistent | ports | encoding | wireSizeMismatch
  deriving DecidableEq, Repr

/-- The limit or the pattern is one of a name: of its text, or of the frame it makes. -/
def DnsFault.OfName : DnsFault → Prop
  | questionName | wireSize | encoding | wireSizeMismatch => True
  | _ => False

/-- `TestPlanError`: of the texts, of a name, or of a document that is not valid; and the `ValueError`
of a text that is no address. -/
inductive DnsPlanError where
  | testPlan (message : String)
  | name (error : NameError)
  | invalid (faults : List DnsFault)
  | notAddress

/-- `if not …: raise TestPlanError(…)` -/
def dnsCheck (p : Prop) [Decidable p] (message : String) : Except DnsPlanError Unit :=
  if p then .ok () else .error (.testPlan message)

/-- What is asked for; of the duration, what `_parse_duration` makes of it. -/
structure DnsIntent where
  clientRole : String
  serverRole : String
  name : Text
  queryType : QueryType
  recursionDesired : Bool
  sourcePortStart : Nat
  sourcePortEnd : Nat
  pps : ℚ
  duration : Option Nat

/-- `DnsStormPlan` -/
structure DnsStormPlan where
  planId : Text
  path : LabPath
  document : DnsStormSpec

/-! ### The document -/

/-- `Limits` -/
def stormLimits (path : LabPath) : Except (List DnsFault) Limits :=
  match path.portWaitTimeout, path.trafficJobTimeout with
  | some portWaitTimeout, some jobTimeout =>
    if pos : 0 < portWaitTimeout ∧ 0 < jobTimeout then .ok ⟨portWaitTimeout, jobTimeout, pos⟩
    else .error [.limits]
  | _, _ => .error [.limits]

/-- `DnsStormClient` -/
def stormClient (client : DatagramReplayRole) (sourcePortStart sourcePortEnd : Nat) :
    Except (List DnsFault) DnsStormClient :=
  if valid : 1024 ≤ sourcePortStart ∧ sourcePortStart ≤ sourcePortEnd ∧ sourcePortEnd ≤ 65535 then
    .ok ⟨client.port, client.mac, client.ipv4, sourcePortStart, sourcePortEnd, valid⟩
  else .error [.sourcePorts]

/-- `DnsQuestion` -/
def stormQuestion (name : Text) (type : QueryType) (recursionDesired : Bool) :
    Except (List DnsFault) DnsQuestion :=
  if valid : (2 ≤ name.length ∧ name.length ≤ 254) ∧ questionPattern name = true then
    .ok ⟨name, type, recursionDesired, valid.1, valid.2⟩
  else .error [.questionName]

/-- The fields of `PacketStormRun` that are out of range. -/
def runFaults (pps : ℚ) (wireSize : Nat) (estimatedBpsL1 : ℚ) (duration : Option Nat) : List DnsFault :=
  (if 0 < pps then [] else [.pps]) ++
    (if 64 ≤ wireSize ∧ wireSize ≤ 512 then [] else [.wireSize]) ++
    (if 0 < estimatedBpsL1 then [] else [.estimatedBpsL1]) ++
    if ∃ d, duration = some d ∧ 0 < d then [] else [.duration]

/-- `PacketStormRun` -/
def stormRun (pps : ℚ) (wireSize : Nat) (estimatedBpsL1 : ℚ) (duration : Option Nat) :
    Except (List DnsFault) PacketStormRun :=
  match duration with
  | none => .error (runFaults pps wireSize estimatedBpsL1 none)
  | some d =>
    if valid : 0 < pps ∧ 64 ≤ wireSize ∧ wireSize ≤ 512 ∧ 0 < estimatedBpsL1 ∧ 0 < d then
      if consistent : |estimatedBpsL1 - pps * (wireSize + 20) * 8| ≤
          max (1 / 10 ^ 6) (pps * (wireSize + 20) * 8 * (1 / 10 ^ 9)) then
        .ok ⟨pps, wireSize, estimatedBpsL1, d, valid, consistent⟩
      else .error [.rateInconsistent]
    else .error (runFaults pps wireSize estimatedBpsL1 (some d))

/-- The faults of a part of the document. -/
def faultsOf {α : Type} : Except (List DnsFault) α → List DnsFault
  | .ok _ => []
  | .error faults => faults

/-- `DnsStormSpec`, whose own checks follow those of its parts. -/
def dnsStormSpec (limits : Except (List DnsFault) Limits)
    (client : Except (List DnsFault) DnsStormClient) (server : DnsStormServer)
    (question : Except (List DnsFault) DnsQuestion) (run : Except (List DnsFault) PacketStormRun) :
    Except (List DnsFault) DnsStormSpec :=
  match limits, client, question, run with
  | .ok limits, .ok client, .ok question, .ok run =>
    if distinct : client.port ≠ server.port then
      match hpayload : encodeDnsQuery question.name question.type question.recursionDesired 0 with
      | .error _ => .error [.encoding]
      | .ok payload =>
        if size : run.wireSize = dnsQueryWireSize payload then
          .ok ⟨limits, client, server, question, run, distinct, payload, hpayload, size⟩
        else .error [.wireSizeMismatch]
    else .error [.ports]
  | limits, client, question, run =>
    .error (faultsOf limits ++ faultsOf client ++ faultsOf question ++ faultsOf run)

/-! ### The plan -/

/-- An address that is not in `allowedCidrs`; without networks it is not parsed. -/
def checkDnsNetworks (policy : SafetyPolicy) (label : String) (address : AddressText) :
    Except DnsPlanError Unit :=
  let message := "DNS storm " ++ label ++ " IPv4 is outside allowedCidrs"
  if policy.allowedCidrs = [] then .error (.testPlan message)
  else
    match address.parsed with
    | some a => dnsCheck (policy.allowsAddress a = true) message
    | none => .error .notAddress

/-- The roles of a storm, with their addresses. -/
def dnsRoles (path : LabPath) (intent : DnsIntent) :
    Except DnsPlanError (DatagramReplayRole × DatagramReplayRole) :=
  match path.roles.lookup intent.clientRole, path.roles.lookup intent.serverRole with
  | some client, some server => do
    dnsCheck (client.port ≠ server.port) "DNS storm roles must use different ports"
    match client.mac, server.mac, client.ipv4, server.ipv4 with
    | some clientMac, some serverMac, some clientIpv4, some serverIpv4 =>
      .ok (⟨client.port, clientMac, clientIpv4⟩, ⟨server.port, serverMac, serverIpv4⟩)
    | _, _, _, _ => .error (.testPlan "DNS storm roles require MAC and IPv4 addresses")
  | _, _ => .error (.testPlan "LabPath does not define both DNS storm roles")

/-- The checks before the name is looked at. -/
def checkDnsIntent (policy : SafetyPolicy) (intent : DnsIntent) (client server : DatagramReplayRole) :
    Except DnsPlanError Unit := do
  dnsCheck (intent.sourcePortStart ≤ intent.sourcePortEnd) "DNS source port start must not exceed end"
  dnsCheck (intent.sourcePortEnd - intent.sourcePortStart + 1 ≤ policy.maxAddressPoolSize)
    "DNS source port range exceeds maxAddressPoolSize"
  checkDnsNetworks policy "client" client.ipv4
  checkDnsNetworks policy "server" server.ipv4
  dnsCheck (policy.allowsMacText client.mac = true) "DNS storm client MAC is outside allowedMacPrefixes"
  dnsCheck (policy.allowsMacText server.mac = true) "DNS storm server MAC is outside allowedMacPrefixes"

/-- `normalize_dns_name` and `encode_dns_query`, whose errors are reported as they are. -/
def dnsPayload (intent : DnsIntent) : Except NameError (Text × List UInt8) := do
  let normalized ← normalizeDnsName intent.name
  let payload ← encodeDnsQuery normalized intent.queryType intent.recursionDesired 0
  pure (normalized, payload)

/-- The document of a storm. -/
def dnsDocument (path : LabPath) (intent : DnsIntent) (client server : DatagramReplayRole)
    (normalized : Text) (payload : List UInt8) : Except (List DnsFault) DnsStormSpec :=
  let wireSize := dnsQueryWireSize payload
  dnsStormSpec (stormLimits path) (stormClient client intent.sourcePortStart intent.sourcePortEnd)
    ⟨server.port, server.mac, server.ipv4, 53⟩
    (stormQuestion normalized intent.queryType intent.recursionDesired)
    (stormRun intent.pps wireSize (intent.pps * (wireSize + 20) * 8) intent.duration)

/-- `plan_dns_storm`, up to `_persist`. `identity` are the digits of the hash of the canonical document;
`path` is what `_load_path` returns. -/
def planDnsStorm (identity : DnsStormSpec → Text) (policy : Option SafetyPolicy)
    (path : Except String LabPath) (intent : DnsIntent) : Except DnsPlanError DnsStormPlan :=
  match policy with
  | none => .error (.testPlan "DNS storm requires a configured SafetyPolicy")
  | some policy => do
    let path ← path.mapError .testPlan
    let (client, server) ← dnsRoles path intent
    checkDnsIntent policy intent client server
    let (normalized, payload) ← (dnsPayload intent).mapError .name
    dnsCheck (intent.pps ≤ policy.maxPps) "DNS storm pps exceeds the SafetyPolicy maximum"
    dnsCheck (intent.pps * (dnsQueryWireSize payload + 20) * 8 ≤ policy.maxBpsL1)
      "DNS storm estimatedBpsL1 exceeds the SafetyPolicy maximum"
    let document ← (dnsDocument path intent client server normalized payload).mapError .invalid
    dnsCheck (document.run.duration ≤ policy.maxRunDuration)
      "DNS storm duration exceeds the SafetyPolicy maximum"
    pure ⟨"plan_".toList ++ identity document, path, document⟩

/-! ### Accepted names -/

/-- The error is not one of the name. -/
def DnsPlanError.Unrelated : DnsPlanError → Prop
  | testPlan _ | notAddress => True
  | name _ => False
  | invalid faults => ∀ fault ∈ faults, ¬fault.OfName

/-- Whatever is raised, it is not for the name. -/
def Unspoiled {α : Type} (result : Except DnsPlanError α) : Prop :=
  ∀ error, result = .error error → error.Unrelated

namespace Unspoiled

variable {α β : Type}

theorem ok (a : α) : Unspoiled (.ok a) := fun _ h => nomatch h

theorem testPlan (message : String) : Unspoiled (α := α) (.error (.testPlan message)) := by
  rintro _ ⟨⟩
  trivial

theorem bind {m : Except DnsPlanError α} {f : α → Except DnsPlanError β} (hm : Unspoiled m)
    (hf : ∀ a, m = .ok a → Unspoiled (f a)) : Unspoiled (m >>= f) := by
  cases m with
  | error error =>
    rintro _ ⟨⟩
    exact hm error rfl
  | ok a => exact hf a rfl

theorem check (p : Prop) [Decidable p] (message : String) : Unspoiled (dnsCheck p message) := by
  unfold dnsCheck
  split
  · exact ok ()
  · exact testPlan message

theorem networks (policy : SafetyPolicy) (label : String) (address : AddressText) :
    Unspoiled (checkDnsNetworks policy label address) := by
  unfold checkDnsNetworks
  dsimp only
  split
  · exact testPlan _
  · split
    · exact check _ _
    · rintro _ ⟨⟩
      trivial

theorem roles (path : LabPath) (intent : DnsIntent) : Unspoiled (dnsRoles path intent) := by
  unfold dnsRoles
  split
  · refine bind (check _ _) fun _ _ => ?_
    split
    · exact ok _
    · exact testPlan _
  · exact testPlan _

theorem intent (policy : SafetyPolicy) (intent : DnsIntent) (client server : DatagramReplayRole) :
    Unspoiled (checkDnsIntent policy intent client server) := by
  unfold checkDnsIntent
  refine bind (check _ _) fun _ _ => bind (check _ _) fun _ _ => ?_
  refine bind (networks _ _ _) fun _ _ => bind (networks _ _ _) fun _ _ => ?_
  exact bind (check _ _) fun _ _ => check _ _

end Unspoiled

section Accepted

variable {value normalized : Text} (h : normalizeDnsName value = .ok normalized)
include h

/-- A normal form has the pattern of a question. -/
theorem questionPattern_normalized : questionPattern normalized = true := by
  obtain ⟨hne, hlabels, -, rfl⟩ := normalizeDnsName_eq_ok.mp h
  simp only [questionPattern, List.getLast?_concat, List.dropLast_concat, List.length_map,
    Bool.and_eq_true, decide_eq_true_eq, List.all_eq_true]
  refine ⟨⟨trivial, List.length_pos_iff.mpr hne⟩, fun c hc => ?_⟩
  obtain ⟨d, hd, rfl⟩ := List.mem_map.mp hc
  by_cases hdot : d = '.'
  · subst hdot
    rfl
  · obtain ⟨label, hlabel, hmem⟩ := Text.mem_splitOn hdot hd
    have hhost := hostChar_toLower ((labelMatches_iff.mp (hlabels label hlabel)).2.2.1 d hmem)
    rw [hostChar, Bool.or_eq_true] at hhost
    rcases hhost with hhost | hhost <;> simp [hhost]

theorem stormQuestion_normalized (type : QueryType) (recursionDesired : Bool) :
    ∃ question, stormQuestion normalized type recursionDesired = .ok question ∧
      question.name = normalized ∧ question.type = type ∧
      question.recursionDesired = recursionDesired :=
  ⟨_, dif_pos ⟨length_normalized h, questionPattern_normalized h⟩, rfl, rfl, rfl⟩

end Accepted

/-- The faults of a run do not come from the size of a frame that is in range. -/
theorem stormRun_faults {pps : ℚ} {wireSize : Nat} {estimatedBpsL1 : ℚ} {duration : Option Nat}
    {faults : List DnsFault} (hsize : 64 ≤ wireSize ∧ wireSize ≤ 512)
    (h : stormRun pps wireSize estimatedBpsL1 duration = .error faults) :
    ∀ fault ∈ faults, ¬fault.OfName := by
  have hrun : ∀ fault ∈ runFaults pps wireSize estimatedBpsL1 duration, ¬fault.OfName := by
    intro fault hfault
    simp only [runFaults, if_pos hsize, List.append_nil, List.mem_append] at hfault
    rcases hfault with (hfault | hfault) | hfault <;> split at hfault <;> simp at hfault <;>
      simp [hfault, DnsFault.OfName]
  unfold stormRun at h
  split at h
  · cases h
    exact hrun
  · split at h
    · split at h
      · cases h
      · cases h
        simp [DnsFault.OfName]
    · cases h
      exact hrun

theorem stormRun_wireSize {pps : ℚ} {wireSize : Nat} {estimatedBpsL1 : ℚ} {duration : Option Nat}
    {run : PacketStormRun} (h : stormRun pps wireSize estimatedBpsL1 duration = .ok run) :
    run.wireSize = wireSize := by
  unfold stormRun at h
  split at h
  · cases h
  · split at h
    · split at h
      · cases h
        rfl
      · cases h
    · cases h

theorem stormLimits_faults {path : LabPath} {faults : List DnsFault}
    (h : stormLimits path = .error faults) : faults = [.limits] := by
  unfold stormLimits at h
  split at h
  · split at h
    · cases h
    · cases h
      rfl
  · cases h
    rfl

theorem stormClient_faults {client : DatagramReplayRole} {first last : Nat} {faults : List DnsFault}
    (h : stormClient client first last = .error faults) : faults = [.sourcePorts] := by
  unfold stormClient at h
  split at h
  · cases h
  · cases h
    rfl

/-- The parts of a document that fail do not fail for a name with a question and a size in range. -/
theorem faultsOf_limits (path : LabPath) : ∀ fault ∈ faultsOf (stormLimits path), ¬fault.OfName := by
  cases h : stormLimits path with
  | ok limits => simp [faultsOf]
  | error faults => simp [faultsOf, stormLimits_faults h, DnsFault.OfName]

theorem faultsOf_client (client : DatagramReplayRole) (first last : Nat) :
    ∀ fault ∈ faultsOf (stormClient client first last), ¬fault.OfName := by
  cases h : stormClient client first last with
  | ok client => simp [faultsOf]
  | error faults => simp [faultsOf, stormClient_faults h, DnsFault.OfName]

/-- The faults of a document are those of its parts, or of its ports, when the question is encoded and
the run has the size of the query. -/
theorem dnsStormSpec_faults {limits : Except (List DnsFault) Limits}
    {client : Except (List DnsFault) DnsStormClient} {server : DnsStormServer} {question : DnsQuestion}
    {run : Except (List DnsFault) PacketStormRun} {payload : List UInt8} {faults : List DnsFault}
    (hencode : encodeDnsQuery question.name question.type question.recursionDesired 0 = .ok payload)
    (hlimits : ∀ fault ∈ faultsOf limits, ¬fault.OfName)
    (hclient : ∀ fault ∈ faultsOf client, ¬fault.OfName)
    (hrun : ∀ fault ∈ faultsOf run, ¬fault.OfName)
    (hsize : ∀ r, run = .ok r → r.wireSize = dnsQueryWireSize payload)
    (h : dnsStormSpec limits client server (.ok question) run = .error faults) :
    ∀ fault ∈ faults, ¬fault.OfName := by
  have hparts : ∀ fault ∈ faultsOf limits ++ faultsOf client ++ [] ++ faultsOf run, ¬fault.OfName := by
    simp only [List.append_nil, List.mem_append]
    rintro fault ((hfault | hfault) | hfault)
    · exact hlimits fault hfault
    · exact hclient fault hfault
    · exact hrun fault hfault
  cases limits with
  | error _ =>
    cases h
    exact hparts
  | ok limits =>
    cases client with
    | error _ =>
      cases h
      exact hparts
    | ok client =>
      cases run with
      | error _ =>
        cases h
        exact hparts
      | ok run =>
        simp only [dnsStormSpec] at h
        split at h
        · split at h
          · next hfailed =>
            rw [hencode] at hfailed
            cases hfailed
          · next hother =>
            obtain rfl := Except.ok.inj (hencode.symm.trans hother)
            rw [dif_pos (hsize run rfl)] at h
            cases h
        · cases h
          simp [DnsFault.OfName]

/-- No fault of a document is one of its name. -/
theorem dnsDocument_faults {value normalized : Text} {payload : List UInt8} {path : LabPath}
    {intent : DnsIntent} {client server : DatagramReplayRole} {faults : List DnsFault}
    (hname : normalizeDnsName value = .ok normalized)
    (hpayload : encodeDnsQuery normalized intent.queryType intent.recursionDesired 0 = .ok payload)
    (h : dnsDocument path intent client server normalized payload = .error faults) :
    ∀ fault ∈ faults, ¬fault.OfName := by
  have hsize := wireSize_bounds (normalizeDnsName_normalized hname) hpayload
  obtain ⟨question, hquestion, hqname, hqtype, hqrecursion⟩ :=
    stormQuestion_normalized hname intent.queryType intent.recursionDesired
  have hencode : encodeDnsQuery question.name question.type question.recursionDesired 0 = .ok payload := by
    rw [hqname, hqtype, hqrecursion]
    exact hpayload
  rw [dnsDocument, hquestion] at h
  refine dnsStormSpec_faults hencode (faultsOf_limits path) (faultsOf_client _ _ _) ?_ ?_ h
  · intro fault hfault
    cases hrun : stormRun intent.pps (dnsQueryWireSize payload)
      (intent.pps * (dnsQueryWireSize payload + 20) * 8) intent.duration with
    | ok run =>
      rw [hrun] at hfault
      simp [faultsOf] at hfault
    | error faults =>
      rw [hrun] at hfault
      exact stormRun_faults hsize hrun fault hfault
  · intro run hrun
    exact stormRun_wireSize hrun

theorem unspoiled_planDnsStorm {normalized : Text} (identity : DnsStormSpec → Text)
    (policy : Option SafetyPolicy) (path : Except String LabPath) (intent : DnsIntent)
    (hname : normalizeDnsName intent.name = .ok normalized) :
    Unspoiled (planDnsStorm identity policy path intent) := by
  obtain ⟨header, -, hpayload⟩ := encodeDnsQuery_eq_ok (normalizeDnsName_normalized hname)
    intent.queryType intent.recursionDesired 0
  have hresult : dnsPayload intent =
      .ok (normalized, header ++ question normalized intent.queryType) := by
    rw [dnsPayload, hname]
    show (encodeDnsQuery normalized intent.queryType intent.recursionDesired 0 >>= _) = _
    rw [hpayload]
    rfl
  cases policy with
  | none => exact Unspoiled.testPlan _
  | some policy =>
    simp only [planDnsStorm, hresult]
    refine Unspoiled.bind ?_ fun path _ => ?_
    · cases path with
      | error message => exact Unspoiled.testPlan message
      | ok path => exact Unspoiled.ok path
    refine Unspoiled.bind (Unspoiled.roles _ _) fun roles _ => ?_
    refine Unspoiled.bind (Unspoiled.intent _ _ _ _) fun _ _ => ?_
    refine Unspoiled.bind (Unspoiled.ok _) fun payload hpair => ?_
    obtain rfl := Except.ok.inj hpair
    refine Unspoiled.bind (Unspoiled.check _ _) fun _ _ => ?_
    refine Unspoiled.bind (Unspoiled.check _ _) fun _ _ => ?_
    refine Unspoiled.bind ?_ fun document _ => ?_
    · cases hdocument : dnsDocument path intent roles.1 roles.2 normalized
        (header ++ question normalized intent.queryType) with
      | ok document => exact Unspoiled.ok document
      | error faults =>
        rintro _ ⟨⟩
        exact dnsDocument_faults hname hpayload hdocument
    · exact Unspoiled.bind (Unspoiled.check _ _) fun _ _ => Unspoiled.ok _

/-- A name that is normalised has one normal form; the query for it is read back as the labels of that
form, its type and the class IN; and it fits the wire format, a question, a frame and a plan. -/
theorem dnsQuery_normalized {value normalized : Text} (h : normalizeDnsName value = .ok normalized) :
    normalizeDnsName normalized = .ok normalized ∧
      (∀ queryType recursionDesired transactionId, ∃ payload,
        encodeDnsQuery value queryType recursionDesired transactionId = .ok payload ∧
        decodeQuestion (payload.drop 12) =
          some ((labels normalized).map ascii, queryType.value, 1, []) ∧
        64 ≤ dnsQueryWireSize payload ∧ dnsQueryWireSize payload ≤ 512) ∧
      (Labels.encode ((labels normalized).map ascii)).length ≤ 255 ∧
      (2 ≤ normalized.length ∧ normalized.length ≤ 254) ∧ questionPattern normalized = true ∧
      ∀ identity policy path intent, intent.name = value →
        Unspoiled (planDnsStorm identity policy path intent) := by
  refine ⟨normalizeDnsName_normalized h, ?_, ?_, length_normalized h, questionPattern_normalized h, ?_⟩
  · intro queryType recursionDesired transactionId
    obtain ⟨header, hheader, hencode⟩ :=
      encodeDnsQuery_eq_ok h queryType recursionDesired transactionId
    refine ⟨_, hencode, ?_, wireSize_bounds h hencode⟩
    rw [List.drop_left' hheader]
    exact decodeQuestion_question h queryType
  · rw [length_encodedName h]
    have hlength := (length_normalized h).2
    omega
  · rintro identity policy path intent rfl
    exact unspoiled_planDnsStorm identity policy path intent h

theorem dnsQuery_example : decodeQuestion
    [7, 101, 120, 97, 109, 112, 108, 101, 3, 99, 111, 109, 0, 0, 28, 0, 1] =
      some ((labels "example.com.".toList).map ascii, 28, 1, []) := by
  obtain ⟨-, hquery, -⟩ := @dnsQuery_normalized "Example.COM".toList _ rfl
  obtain ⟨payload, hpayload, hdecode, -⟩ := hquery .aaaa true 0
  cases hpayload
  exact hdecode

end TrexCli.Storm
