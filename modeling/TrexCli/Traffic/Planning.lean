import Mathlib.Algebra.BigOperators.Ring.Finset
import Mathlib.Algebra.BigOperators.Ring.List
import Mathlib.Algebra.Order.BigOperators.Group.List
import Mathlib.Tactic.FieldSimp
import Mathlib.Tactic.Linarith
import TrexCli.Traffic.Documents
import TrexCli.Traffic.Templates
import TrexCli.Workload.Planning

/-!
# Planning traffic

`plan_traffic` of `test_plan.py`, from the selection of the flows to the document. The weight of a flow
is relative to the flows of its role, and a stream is sent from the port of the role. So the streams of
a port have the requested rate together when the flows that are sent from it have one role
(`perEgress_iff`): two roles of one port have it each.
-/

namespace TrexCli.TrafficPlan

variable {F : Type}

/-! ### Streams -/

section Streams

variable (context : Context F) (path : LabPath) (rate : Rate)

/-- `source_weights` -/
def sourceWeights (selected : List (String × FlowTemplate F)) : String → Nat :=
  selected.foldl (fun weights item =>
    Function.update weights item.2.fromRole (weights item.2.fromRole + item.2.weight)) fun _ => 0

/-- `_scaled_rate` -/
def scaledRate (share : ℚ) : Except TrafficPlanError Rate :=
  if h : 0 < rate.value * share ∧ (rate.unit = .percentL1 → rate.value * share ≤ 100) then
    .ok ⟨rate.unit, rate.value * share, h.1, h.2⟩
  else .error .validationError

/-- An element of `resolved_streams`. -/
structure StreamDraft (F : Type) where
  name : String
  tx : PortId
  rx : PortId
  packet : JsonValue F
  rate : Rate
  wireSize : Int

/-- `isinstance(wire_size, int)`, and no `bool` -/
def integerSize : JsonValue F → Except TrafficPlanError Int
  | .int n => .ok n
  | _ => .error (.testPlan "resolved frame wireSize must be an integer")

/-- The share of an entry of a flow. -/
def entryShare (weights : String → Nat) (flow : FlowTemplate F) (frameWeight : Nat) : ℚ :=
  (flow.weight : ℚ) / weights flow.fromRole * frameWeight / flow.frame.weightTotal

/-- The stream of an entry. -/
def entryStream (weights : String → Nat) (name : String) (flow : FlowTemplate F) (tx rx : PortId)
    (template : List (Text × JsonValue F)) (entry : JsonValue F × Nat) :
    Except TrafficPlanError (StreamDraft F) := do
  let resolved ← resolveValue context entry.1
  let wireSize ← integerSize resolved
  let streamRate ← scaledRate rate (entryShare weights flow entry.2)
  pure
    { name := if flow.frame.entries.length = 1 then name else name ++ "/" ++ toString wireSize
      tx
      rx
      packet := .obj (JsonValue.ofFields (("frameSize".toList, .int wireSize) :: template))
      rate := streamRate
      wireSize }

/-- The role of a flow. -/
def flowRole (name : String) : Except TrafficPlanError LabRole :=
  match path.roles.lookup name with
  | some role => .ok role
  | none => .error (.testPlan ("LabPath " ++ path.name ++ " has no role " ++ name))

/-- The streams of a flow. -/
def flowStreams (weights : String → Nat) (item : String × FlowTemplate F) :
    Except TrafficPlanError (List (StreamDraft F)) := do
  let source ← flowRole path item.2.fromRole
  let destination ← flowRole path item.2.toRole
  trafficCheck (source.port ≠ destination.port)
    "flow source and destination roles must use different ports"
  let template ← resolveFields context item.2.packet
  item.2.frame.entries.mapM
    (entryStream context rate weights item.1 item.2 source.port destination.port template)

end Streams

/-! ### The document -/

/-- The pattern of a stream's name: a letter or a digit, and at most 127 of these and of `_.:-` and a
slash. -/
def validStreamName : Text → Bool
  | [] => false
  | c :: rest => c.isAlphanum && rest.length < 128 &&
      rest.all fun c => c.isAlphanum || c ∈ ['_', '.', ':', '/', '-']

/-- What `ResolvedTrafficStream` makes of its fields. -/
def resolvedStream (packetOf : JsonValue F → Option Packet) (draft : StreamDraft F) :
    Option ResolvedTrafficStream := do
  let packet ← packetOf draft.packet
  if h : validStreamName draft.name.toList = true ∧ draft.tx ≠ draft.rx then
    some ⟨draft.name, draft.tx, draft.rx, packet, draft.rate, h.2⟩
  else none

/-- What `StatelessTrafficSpec` makes of its fields. -/
def resolvedSpec (path : LabPath) (rate : Rate) (duration : Option Nat)
    (streams : List ResolvedTrafficStream) : Option StatelessTrafficSpec := do
  let first ← streams.head?
  let portWaitTimeout ← path.portWaitTimeout
  let jobTimeout ← path.trafficJobTimeout
  let limits ← workloadLimits portWaitTimeout jobTimeout
  let duration ← duration
  if h : streams.length ≤ 256 ∧ 0 < duration ∧ (streams.map ResolvedTrafficStream.name).Nodup then
    some
      { ports := ⟨first.tx, first.rx, .unidirectional, first.distinct⟩
        limits
        packet := first.packet
        rate
        duration := some duration
        burstPackets := none
        maxLossPercent := none
        streams
        bounded := h.1
        durationOrBurst := by simp
        pos := by simpa using h.2.1
        resolved := StatelessTrafficSpec.resolved_of_no_burst streams
        names := h.2.2
        assertion := StatelessTrafficSpec.no_assertion }
  else none

/-- `IntentPlan`, with the name of its document. -/
structure IntentPlan where
  profileName : String
  pathName : String
  flowNames : List String
  wireSizes : List Int
  name : String
  document : StatelessTrafficSpec

/-- `StatelessTrafficDocument.model_validate` -/
def trafficDocument (packetOf : JsonValue F → Option Packet) (path : LabPath) (rate : Rate)
    (duration : Option Nat) (name : String) (drafts : List (StreamDraft F)) :
    Option StatelessTrafficSpec := do
  let streams ← drafts.mapM (resolvedStream packetOf)
  let spec ← resolvedSpec path rate duration streams
  if name.length ≤ 128 then some spec else none

/-- `requested_flows` -/
def requestedFlows (flowName : Option String) (flowNames : List String) :
    Except TrafficPlanError (List String) :=
  match flowName with
  | none => .ok flowNames
  | some name => do
    trafficCheck (flowNames = []) "flow_name and flow_names cannot be used together"
    pure [name]

section Plan

variable (dump : LabRole → List (Text × Text)) (packetOf : JsonValue F → Option Packet)

/-- The context of the references; `dump` are the fields of a role that are given. -/
def planContext (path : LabPath) (values : List (Text × JsonValue F)) : Context F where
  params := values
  roles := path.roles.map fun role => (role.1.toList, dump role.2)

/-- `plan_traffic` from the flows on, before the plan is stored: `values` are the resolved parameters
and `packetOf` what `Packet` makes of an object. -/
def planTraffic (profile : TrafficProfile F) (path : LabPath) (values : List (Text × JsonValue F))
    (rate : Rate) (duration : Option Nat) (flowName : Option String) (flowNames : List String) :
    Except TrafficPlanError IntentPlan := do
  let requested ← requestedFlows flowName flowNames
  let selected ← selectFlows profile requested
  let drafts ← selected.mapM
    (flowStreams (planContext dump path values) path rate (sourceWeights selected))
  match trafficDocument packetOf path rate duration (profile.name ++ "-traffic") drafts.flatten with
  | none => .error (.testPlan "1 validation error for StatelessTrafficDocument")
  | some document =>
    pure
      { profileName := profile.name
        pathName := path.name
        flowNames := selected.map Prod.fst
        wireSizes := drafts.flatten.map StreamDraft.wireSize
        name := profile.name ++ "-traffic"
        document }

end Plan

/-! ### Weights -/

/-- The weights of the flows of a role. -/
theorem sourceWeights_eq (selected : List (String × FlowTemplate F)) (role : String) :
    sourceWeights selected role =
      ((selected.filter fun item => item.2.fromRole = role).map fun item => item.2.weight).sum := by
  have hfold : ∀ (selected : List (String × FlowTemplate F)) (weights : String → Nat),
      selected.foldl (fun weights item =>
        Function.update weights item.2.fromRole (weights item.2.fromRole + item.2.weight)) weights role =
        weights role +
          ((selected.filter fun item => item.2.fromRole = role).map fun item => item.2.weight).sum := by
    intro selected
    induction selected with
    | nil => simp
    | cons item selected ih =>
      intro weights
      rw [List.foldl_cons, ih]
      by_cases hrole : item.2.fromRole = role
      · subst hrole
        simp [Nat.add_assoc]
      · simp [hrole, Function.update_of_ne (Ne.symm hrole)]
  rw [sourceWeights, hfold, Nat.zero_add]

/-- The weight of a flow among those of its role. -/
def relativeWeight (weights : String → Nat) (item : String × FlowTemplate F) : ℚ :=
  item.2.weight / weights item.2.fromRole

section Weights

variable {selected : List (String × FlowTemplate F)}

theorem sourceWeights_pos {item : String × FlowTemplate F} (h : item ∈ selected) :
    0 < sourceWeights selected item.2.fromRole := by
  rw [sourceWeights_eq]
  have hmem : item.2.weight ∈ (selected.filter fun other => other.2.fromRole = item.2.fromRole).map
      fun item => item.2.weight :=
    List.mem_map_of_mem (List.mem_filter.mpr ⟨h, decide_eq_true rfl⟩)
  exact item.2.pos.trans (List.le_sum_of_mem hmem)

/-- The flows of a role together. -/
theorem sum_relativeWeight {item : String × FlowTemplate F} (h : item ∈ selected) :
    ((selected.filter fun other => other.2.fromRole = item.2.fromRole).map
      (relativeWeight (sourceWeights selected))).sum = 1 := by
  have hpos : (sourceWeights selected item.2.fromRole : ℚ) ≠ 0 := by
    have := sourceWeights_pos h
    positivity
  have hmap : (selected.filter fun other => other.2.fromRole = item.2.fromRole).map
      (relativeWeight (sourceWeights selected)) =
      (selected.filter fun other => other.2.fromRole = item.2.fromRole).map fun other =>
        (other.2.weight : ℚ) * (1 / sourceWeights selected item.2.fromRole) := by
    refine List.map_congr_left fun other hother => ?_
    have hrole : other.2.fromRole = item.2.fromRole := by simpa using (List.mem_filter.mp hother).2
    rw [relativeWeight, hrole, mul_one_div]
  have hsum : ((selected.filter fun other => other.2.fromRole = item.2.fromRole).map fun other =>
      (other.2.weight : ℚ)).sum = sourceWeights selected item.2.fromRole := by
    rw [sourceWeights_eq, Nat.cast_list_sum, List.map_map]
    rfl
  rw [hmap, List.sum_map_mul_right, hsum, mul_one_div_cancel hpos]

theorem sum_filter {α : Type} (xs : List α) (f : α → ℚ) (p : α → Bool) :
    ((xs.filter p).map f).sum = (xs.map fun x => if p x = true then f x else 0).sum := by
  induction xs with
  | nil => rfl
  | cons x xs ih =>
    by_cases hp : p x = true
    · simp [hp, ih]
    · simp [hp, ih]

/-- Sums over parts that do not overlap. -/
theorem sum_filter_add_le {α : Type} {xs : List α} {f : α → ℚ} (hf : ∀ x ∈ xs, 0 ≤ f x)
    {p q r : α → Bool} (hp : ∀ x, p x = true → r x = true) (hq : ∀ x, q x = true → r x = true)
    (hpq : ∀ x, p x = true → ¬q x = true) :
    ((xs.filter p).map f).sum + ((xs.filter q).map f).sum ≤ ((xs.filter r).map f).sum := by
  rw [sum_filter, sum_filter, sum_filter, ← List.sum_map_add]
  refine List.sum_le_sum fun x hx => ?_
  have hnonneg := hf x hx
  by_cases hpx : p x = true
  · rw [if_pos hpx, if_neg (hpq x hpx), if_pos (hp x hpx), add_zero]
  · rw [if_neg hpx, zero_add]
    by_cases hqx : q x = true
    · rw [if_pos hqx, if_pos (hq x hqx)]
    · rw [if_neg hqx]
      split
      · exact hnonneg
      · exact le_rfl

end Weights

/-! ### The load of a port -/

/-- The port of a role. -/
def portOf (path : LabPath) (role : String) : Option PortId := (path.roles.lookup role).map LabRole.port

/-- The role that each stream is sent from, and its share: the weight of its flow, times that of its
frame size among the frame sizes of the flow. -/
def streamShares (selected : List (String × FlowTemplate F)) : List (String × ℚ) :=
  selected.flatMap fun item => item.2.frame.entries.map fun entry =>
    (item.2.fromRole, item.2.weight * (entry.2 / item.2.frame.weightTotal))

/-- The streams of each port that is used have the requested rate together, and divide it in proportion
to their shares. -/
structure PerEgress (path : LabPath) (rate : Rate) (shares : List (String × ℚ))
    (streams : List ResolvedTrafficStream) : Prop where
  unit : ∀ stream ∈ streams, stream.rate.unit = rate.unit
  total : ∀ port ∈ streams.map ResolvedTrafficStream.tx,
    ((streams.filter fun stream => stream.tx = port).map fun stream => stream.rate.value).sum = rate.value
  proportional : ∃ c : PortId → ℚ, List.Forall₂ (fun stream share =>
    portOf path share.1 = some stream.tx ∧ stream.rate.value = c stream.tx * share.2) streams shares

/-- The port and the rate of a stream are those of its role and of its share. -/
def Loads (path : LabPath) (rate : Rate) (weights : String → Nat) (load : PortId × Rate)
    (share : String × ℚ) : Prop :=
  portOf path share.1 = some load.1 ∧ load.2.unit = rate.unit ∧
    load.2.value = rate.value * (share.2 / weights share.1)

section Run

variable {context : Context F} {path : LabPath} {rate : Rate} {weights : String → Nat}

theorem scaledRate_eq_ok {share : ℚ} {scaled : Rate} (h : scaledRate rate share = .ok scaled) :
    scaled.unit = rate.unit ∧ scaled.value = rate.value * share := by
  unfold scaledRate at h
  split at h
  · cases h
    exact ⟨rfl, rfl⟩
  · cases h

/-- The stream of an entry. -/
theorem entryStream_eq_ok {name : String} {flow : FlowTemplate F} {tx rx : PortId}
    {template : List (Text × JsonValue F)} {entry : JsonValue F × Nat} {draft : StreamDraft F}
    (hport : portOf path flow.fromRole = some tx)
    (h : entryStream context rate weights name flow tx rx template entry = .ok draft) :
    Loads path rate weights (draft.tx, draft.rate)
      (flow.fromRole, flow.weight * (entry.2 / flow.frame.weightTotal)) := by
  obtain ⟨resolved, -, h⟩ := bind_eq_ok.mp h
  obtain ⟨wireSize, -, h⟩ := bind_eq_ok.mp h
  obtain ⟨streamRate, hrate, h⟩ := bind_eq_ok.mp h
  obtain rfl := Except.ok.inj h
  obtain ⟨hunit, hvalue⟩ := scaledRate_eq_ok hrate
  refine ⟨hport, hunit, ?_⟩
  rw [hvalue, entryShare]
  congr 1
  ring

/-- The streams of a flow. -/
theorem flowStreams_eq_ok {item : String × FlowTemplate F} {drafts : List (StreamDraft F)}
    (h : flowStreams context path rate weights item = .ok drafts) :
    List.Forall₂ (fun draft share => Loads path rate weights (draft.tx, draft.rate) share) drafts
      (item.2.frame.entries.map fun entry =>
        (item.2.fromRole, item.2.weight * (entry.2 / item.2.frame.weightTotal))) := by
  obtain ⟨source, hsource, h⟩ := bind_eq_ok.mp h
  obtain ⟨destination, -, h⟩ := bind_eq_ok.mp h
  rw [check_bind_eq_ok] at h
  obtain ⟨template, -, h⟩ := bind_eq_ok.mp h.2
  have hport : portOf path item.2.fromRole = some source.port := by
    unfold flowRole at hsource
    split at hsource
    · next role hrole =>
      cases hsource
      rw [portOf, hrole, Option.map_some]
    · cases hsource
  rw [List.forall₂_map_right_iff]
  exact ((mapM_eq_ok.mp h).imp fun _ _ hentry => entryStream_eq_ok hport hentry).flip

/-- The streams of the flows. -/
theorem forall₂_flatten {α β γ : Type} {R : β → γ → Prop} {f : α → List γ} {xs : List α}
    {yss : List (List β)} (h : List.Forall₂ (fun x ys => List.Forall₂ R ys (f x)) xs yss) :
    List.Forall₂ R yss.flatten (xs.flatMap f) := by
  induction h with
  | nil => exact .nil
  | cons hx _ ih => exact List.rel_append hx ih

theorem resolvedStream_eq_some {packetOf : JsonValue F → Option Packet} {draft : StreamDraft F}
    {stream : ResolvedTrafficStream} (h : resolvedStream packetOf draft = some stream) :
    (stream.tx, stream.rate) = (draft.tx, draft.rate) := by
  obtain ⟨packet, -, h⟩ := Option.bind_eq_some_iff.mp h
  split at h
  · cases h
    rfl
  · cases h

theorem resolvedSpec_eq_some {duration : Option Nat} {streams : List ResolvedTrafficStream}
    {spec : StatelessTrafficSpec} (h : resolvedSpec path rate duration streams = some spec) :
    spec.streams = streams ∧ spec.rate = rate := by
  simp only [resolvedSpec, Option.bind_eq_bind, Option.bind_eq_some_iff] at h
  obtain ⟨first, -, _, -, _, -, limits, -, duration, -, h⟩ := h
  split at h
  · cases h
    exact ⟨rfl, rfl⟩
  · cases h

/-- The streams of a plan. -/
theorem planTraffic_eq_ok {dump : LabRole → List (Text × Text)} {packetOf : JsonValue F → Option Packet}
    {profile : TrafficProfile F} {values : List (Text × JsonValue F)} {duration : Option Nat}
    {flowName : Option String} {flowNames : List String} {plan : IntentPlan}
    (h : planTraffic dump packetOf profile path values rate duration flowName flowNames = .ok plan) :
    ∃ requested selected, requestedFlows flowName flowNames = .ok requested ∧
      selectFlows profile requested = .ok selected ∧
      List.Forall₂ (fun stream share =>
        Loads path rate (sourceWeights selected) (stream.tx, stream.rate) share)
        plan.document.streams (streamShares selected) := by
  obtain ⟨requested, hrequested, h⟩ := bind_eq_ok.mp h
  obtain ⟨selected, hselected, h⟩ := bind_eq_ok.mp h
  obtain ⟨drafts, hdrafts, h⟩ := bind_eq_ok.mp h
  refine ⟨requested, selected, hrequested, hselected, ?_⟩
  split at h
  · cases h
  · next document hdocument =>
    obtain rfl := Except.ok.inj h
    obtain ⟨streams, hstreams, hdocument⟩ := Option.bind_eq_some_iff.mp hdocument
    obtain ⟨spec, hspec, hdocument⟩ := Option.bind_eq_some_iff.mp hdocument
    split at hdocument
    · obtain rfl := Option.some.inj hdocument
      have hloads := forall₂_flatten ((mapM_eq_ok.mp hdrafts).imp fun _ _ => flowStreams_eq_ok)
      have hsame : streams.map (fun stream => (stream.tx, stream.rate)) =
          drafts.flatten.map fun draft => (draft.tx, draft.rate) := by
        rw [← List.forall₂_eq_eq_eq, List.forall₂_map_left_iff, List.forall₂_map_right_iff]
        exact ((mapM_eq_some.mp hstreams).imp fun _ _ => resolvedStream_eq_some).flip
      have hpairs : List.Forall₂ (Loads path rate (sourceWeights selected))
          (drafts.flatten.map fun draft => (draft.tx, draft.rate)) (streamShares selected) :=
        List.forall₂_map_left_iff.mpr hloads
      rw [← hsame, List.forall₂_map_left_iff] at hpairs
      show List.Forall₂ _ spec.streams _
      rw [(resolvedSpec_eq_some hspec).1]
      exact hpairs
    · cases hdocument

end Run

section Load

variable {path : LabPath} {rate : Rate} {selected : List (String × FlowTemplate F)}
  {streams : List ResolvedTrafficStream}

/-- The entries of a flow together. -/
theorem sum_entries (weights : String → Nat) (item : String × FlowTemplate F) (value : ℚ) :
    (item.2.frame.entries.map fun entry =>
      value * (item.2.weight * (entry.2 / item.2.frame.weightTotal) / weights item.2.fromRole)).sum =
      value * relativeWeight weights item := by
  have htotal : (item.2.frame.weightTotal : ℚ) ≠ 0 := by
    have := item.2.frame.weightTotal_pos
    positivity
  have hmap : (fun entry : JsonValue F × Nat =>
      value * (item.2.weight * (entry.2 / item.2.frame.weightTotal) / weights item.2.fromRole)) =
      fun entry => value * relativeWeight weights item / item.2.frame.weightTotal * entry.2 := by
    funext entry
    rw [relativeWeight]
    ring
  have hsum : (item.2.frame.entries.map fun entry => (entry.2 : ℚ)).sum =
      item.2.frame.weightTotal := by
    rw [FrameTemplate.weightTotal, Nat.cast_list_sum, List.map_map]
    rfl
  rw [hmap, List.sum_map_mul_left, hsum, div_mul_cancel₀ _ htotal]

/-- What the shares of a port make together is what its flows make. -/
theorem sum_streamShares (weights : String → Nat) (selected : List (String × FlowTemplate F))
    (value : ℚ) (port : PortId) :
    (((streamShares selected).filter fun share => portOf path share.1 = some port).map fun share =>
      value * (share.2 / weights share.1)).sum =
      value * ((selected.filter fun item => portOf path item.2.fromRole = some port).map
        (relativeWeight weights)).sum := by
  induction selected with
  | nil => simp [streamShares]
  | cons item selected ih =>
    rw [streamShares, List.flatMap_cons, List.filter_append, List.map_append, List.sum_append]
    rw [streamShares] at ih
    rw [ih]
    have hrole : ∀ share ∈ item.2.frame.entries.map (fun entry => ((item.2.fromRole,
        (item.2.weight * (entry.2 / item.2.frame.weightTotal) : ℚ)) : String × ℚ)),
        share.1 = item.2.fromRole := by
      intro share hshare
      obtain ⟨entry, -, rfl⟩ := List.mem_map.mp hshare
      rfl
    by_cases hport : portOf path item.2.fromRole = some port
    · have hentries := sum_entries weights item value
      rw [List.filter_cons_of_pos (by simpa using hport), List.map_cons, List.sum_cons, mul_add,
        List.filter_eq_self.mpr fun share hshare => decide_eq_true (hrole share hshare ▸ hport),
        List.map_map]
      exact congrArg (· + _) hentries
    · rw [List.filter_cons_of_neg (by simpa using hport), List.filter_eq_nil_iff.mpr fun share hshare =>
        fun hsame => hport (hrole share hshare ▸ of_decide_eq_true hsame)]
      simp

/-- The rate of a port is the requested one times the relative weights of the flows sent from it. -/
theorem sum_rates (h : List.Forall₂ (fun stream share =>
      Loads path rate (sourceWeights selected) (stream.tx, stream.rate) share) streams
      (streamShares selected)) (port : PortId) :
    ((streams.filter fun stream => stream.tx = port).map fun stream => stream.rate.value).sum =
      rate.value * ((selected.filter fun item => portOf path item.2.fromRole = some port).map
        (relativeWeight (sourceWeights selected))).sum := by
  rw [← sum_streamShares]
  generalize streamShares selected = shares at h ⊢
  induction h with
  | nil => rfl
  | @cons stream share streams shares hload _ ih =>
    obtain ⟨hport, -, hvalue⟩ := hload
    by_cases hsends : stream.tx = port
    · rw [List.filter_cons_of_pos (by simpa using hsends),
        List.filter_cons_of_pos (by simpa [hsends] using hport), List.map_cons, List.map_cons,
        List.sum_cons, List.sum_cons, ih, hvalue]
    · rw [List.filter_cons_of_neg (by simpa using hsends),
        List.filter_cons_of_neg (by simpa [hport] using hsends), ih]

/-- No two roles of the flows have one port. -/
def OneRolePerPort (path : LabPath) (selected : List (String × FlowTemplate F)) : Prop :=
  ∀ first ∈ selected, ∀ second ∈ selected,
    portOf path first.2.fromRole = portOf path second.2.fromRole →
      first.2.fromRole = second.2.fromRole

theorem mem_streamShares {share : String × ℚ} (h : share ∈ streamShares selected) :
    ∃ item ∈ selected, share.1 = item.2.fromRole := by
  obtain ⟨item, hitem, hshare⟩ := List.mem_flatMap.mp h
  obtain ⟨entry, -, rfl⟩ := List.mem_map.mp hshare
  exact ⟨item, hitem, rfl⟩

/-- Each flow has a stream. -/
theorem exists_stream {R : ResolvedTrafficStream → String × ℚ → Prop}
    (h : List.Forall₂ R streams (streamShares selected)) {item : String × FlowTemplate F}
    (hitem : item ∈ selected) : ∃ stream ∈ streams, ∃ share, share.1 = item.2.fromRole ∧ R stream share := by
  have hne : item.2.frame.entries ≠ [] := by
    intro hnil
    have hpos := item.2.frame.weightTotal_pos
    rw [FrameTemplate.weightTotal, hnil] at hpos
    exact Nat.lt_irrefl 0 hpos
  obtain ⟨entry, rest, hentries⟩ := List.exists_cons_of_ne_nil hne
  have hshare : (item.2.fromRole, (item.2.weight * (entry.2 / item.2.frame.weightTotal) : ℚ)) ∈
      streamShares selected := by
    refine List.mem_flatMap.mpr ⟨item, hitem, List.mem_map.mpr ⟨entry, ?_, rfl⟩⟩
    rw [hentries]
    exact List.mem_cons_self
  obtain ⟨stream, hstream, hR⟩ := exists_left_of_forall₂ h hshare
  exact ⟨stream, hstream, _, rfl, hR⟩

theorem relativeWeight_nonneg (weights : String → Nat) (item : String × FlowTemplate F) :
    0 ≤ relativeWeight weights item := by
  unfold relativeWeight
  positivity

section Loaded

variable (hloads : List.Forall₂ (fun stream share =>
  Loads path rate (sourceWeights selected) (stream.tx, stream.rate) share) streams
  (streamShares selected))
include hloads

/-- Two roles of one port have the requested rate twice. -/
theorem oneRole_of_perEgress (h : PerEgress path rate (streamShares selected) streams) :
    OneRolePerPort path selected := by
  intro first hfirst second hsecond hport
  by_contra hroles
  obtain ⟨stream, hstream, share, hshare, hsends, -⟩ := exists_stream hloads hfirst
  rw [hshare] at hsends
  have htotal := h.total stream.tx (List.mem_map_of_mem hstream)
  rw [sum_rates hloads] at htotal
  have hone : ((selected.filter fun item => portOf path item.2.fromRole = some stream.tx).map
      (relativeWeight (sourceWeights selected))).sum = 1 :=
    mul_left_cancel₀ rate.pos.ne' (htotal.trans (mul_one _).symm)
  have htwo := @sum_filter_add_le _ selected (relativeWeight (sourceWeights selected))
    (fun item _ => relativeWeight_nonneg _ item)
    (fun item => item.2.fromRole = first.2.fromRole) (fun item => item.2.fromRole = second.2.fromRole)
    (fun item => portOf path item.2.fromRole = some stream.tx)
    (fun item hitem => by simpa [of_decide_eq_true hitem] using hsends)
    (fun item hitem => by simpa [of_decide_eq_true hitem, ← hport] using hsends)
    (fun item hitem => by simpa [of_decide_eq_true hitem] using hroles)
  rw [sum_relativeWeight hfirst, sum_relativeWeight hsecond, hone] at htwo
  norm_num at htwo

/-- Roles on ports of their own divide the requested rate. -/
theorem perEgress_of_oneRole (h : OneRolePerPort path selected) :
    PerEgress path rate (streamShares selected) streams where
  unit := by
    intro stream hstream
    obtain ⟨share, -, -, hunit, -⟩ := exists_right_of_forall₂ hloads hstream
    exact hunit
  total := by
    intro port hport
    obtain ⟨stream, hstream, rfl⟩ := List.mem_map.mp hport
    obtain ⟨share, hshare, hsends, -⟩ := exists_right_of_forall₂ hloads hstream
    obtain ⟨item, hitem, hrole⟩ := mem_streamShares hshare
    rw [hrole] at hsends
    have hfilter : (selected.filter fun other => portOf path other.2.fromRole = some stream.tx) =
        selected.filter fun other => other.2.fromRole = item.2.fromRole := by
      refine List.filter_congr fun other hother => ?_
      refine decide_eq_decide.mpr ⟨fun hother' => ?_, fun hother' => hother' ▸ hsends⟩
      exact h other hother item hitem (hother'.trans hsends.symm)
    rw [sum_rates hloads, hfilter, sum_relativeWeight hitem, mul_one]
  proportional := by
    refine ⟨fun port => rate.value / sourceWeights selected
      ((selected.find? fun item => portOf path item.2.fromRole = some port).elim ""
        fun item => item.2.fromRole), ?_⟩
    have hmem := (List.forall₂_and_left _ _).mpr
      ⟨fun share hshare => mem_streamShares hshare, hloads.flip⟩
    refine (hmem.imp fun share stream hload => ?_).flip
    obtain ⟨⟨item, hitem, hrole⟩, hsends, -, hvalue⟩ := hload
    refine ⟨hsends, ?_⟩
    rw [hrole] at hsends
    obtain ⟨other, hother⟩ : ∃ other, (selected.find? fun item =>
        portOf path item.2.fromRole = some stream.tx) = some other :=
      Option.isSome_iff_exists.mp (List.find?_isSome.mpr ⟨item, hitem, decide_eq_true hsends⟩)
    have hfound : portOf path other.2.fromRole = some stream.tx := by simpa using List.find?_some hother
    have hsame := h other (List.mem_of_find?_eq_some hother) item hitem (hfound.trans hsends.symm)
    beta_reduce
    rw [hother, Option.elim_some, hsame, ← hrole]
    calc stream.rate.value = rate.value * (share.2 / sourceWeights selected share.1) := hvalue
      _ = rate.value / sourceWeights selected share.1 * share.2 := by ring

end Loaded

end Load

/-- The streams of a plan have the requested rate on each port exactly when no two roles of its flows
have one port. -/
theorem perEgress_iff {dump : LabRole → List (Text × Text)} {packetOf : JsonValue F → Option Packet}
    {profile : TrafficProfile F} {path : LabPath} {values : List (Text × JsonValue F)} {rate : Rate}
    {duration : Option Nat} {flowName : Option String} {flowNames : List String} {plan : IntentPlan}
    (h : planTraffic dump packetOf profile path values rate duration flowName flowNames = .ok plan) :
    ∃ requested selected, requestedFlows flowName flowNames = .ok requested ∧
      selectFlows profile requested = .ok selected ∧
      (PerEgress path rate (streamShares selected) plan.document.streams ↔
        OneRolePerPort path selected) := by
  obtain ⟨requested, selected, hrequested, hselected, hloads⟩ := planTraffic_eq_ok h
  exact ⟨requested, selected, hrequested, hselected, oneRole_of_perEgress hloads,
    perEgress_of_oneRole hloads⟩

/-! ### Two clients -/

/-- Clients on the ports 0 and `second`, and a server on the port 1. -/
def twoClients (second : PortId) : LabPath where
  name := "lab"
  revision := 1
  digest := "sha256:0"
  roles := [("client", ⟨0, none, none⟩), ("client2", ⟨second, none, none⟩), ("server", ⟨1, none, none⟩)]
  portWaitTimeout := some 30000
  trafficJobTimeout := some 600000

/-- A flow of 64 byte frames to the server. -/
def clientFlow (role : String) : FlowTemplate F where
  fromRole := role
  toRole := "server"
  frame := .wireSize (.int 64) (by simp)
  packet := []
  pos := one_le_defaultWeight

/-- A flow of each client. -/
def clientFlows : TrafficProfile F where
  name := "uplink"
  flows := [("first", clientFlow "client"), ("second", clientFlow "client2")]
  ne := by simp
  names := by simp

/-- A packet of 64 bytes. -/
def clientPacket : Packet where
  ethernet := ⟨.value ⟨0x020000000001, Lab.clientMac_lt, Lab.clientMac_unicast⟩,
    .value ⟨0x020000000002, Lab.serverMac_lt, Lab.serverMac_unicast⟩⟩
  network := none
  transport := none
  stack := by simp
  frameSize := 64
  size := Lab.frameSize_bounds

/-- A thousand packets in a second. -/
def requestedRate : Rate := ⟨.pps, 1000, Lab.thousand_pps_pos, Lab.thousand_pps_percent⟩

/-- The plan of the two flows. -/
def clientPlan (second : PortId) : Except TrafficPlanError IntentPlan :=
  planTraffic (fun _ => []) (fun _ => some clientPacket) (clientFlows : TrafficProfile ℚ)
    (twoClients second) [] requestedRate (some 1000) none []

/-- The requested rate of a port in a plan. -/
def egressRate (port : PortId) (plan : IntentPlan) : ℚ :=
  ((plan.document.streams.filter fun stream => stream.tx = port).map fun stream => stream.rate.value).sum

theorem clientPlan_egressRate :
    (clientPlan 0).toOption.map (egressRate 0) = some 2000 ∧
      (clientPlan 2).toOption.map (egressRate 0) = some 1000 := by
  decide +kernel

/-- Both clients on one port have the requested rate each. -/
theorem clientPlan_doubled : ∃ plan, clientPlan 0 = .ok plan ∧ egressRate 0 plan = 2000 ∧
    ¬PerEgress (twoClients 0) requestedRate
      (streamShares (clientFlows : TrafficProfile ℚ).flows) plan.document.streams := by
  cases hplan : clientPlan 0 with
  | error e => simpa [hplan, Except.toOption] using clientPlan_egressRate.1
  | ok plan =>
    have hrate : egressRate 0 plan = 2000 := by
      simpa [hplan, Except.toOption] using clientPlan_egressRate.1
    refine ⟨plan, rfl, hrate, fun hper => ?_⟩
    have hused : (0 : PortId) ∈ plan.document.streams.map ResolvedTrafficStream.tx := by
      by_contra hunused
      have hnone : plan.document.streams.filter (fun stream => stream.tx = (0 : PortId)) = [] :=
        List.filter_eq_nil_iff.mpr fun stream hstream hsame =>
          hunused (of_decide_eq_true hsame ▸ List.mem_map_of_mem hstream)
      rw [egressRate, hnone] at hrate
      norm_num at hrate
    have htotal : egressRate 0 plan = 1000 := hper.total 0 hused
    rw [hrate] at htotal
    norm_num at htotal

theorem perEgress_iff_clients : ∃ plan requested selected,
    clientPlan 2 = .ok plan ∧ requestedFlows none [] = .ok requested ∧
      selectFlows (clientFlows : TrafficProfile ℚ) requested = .ok selected ∧
      (PerEgress (twoClients 2) requestedRate (streamShares selected) plan.document.streams ↔
        OneRolePerPort (twoClients 2) selected) := by
  cases hplan : clientPlan 2 with
  | error e => simpa [hplan, Except.toOption] using clientPlan_egressRate.2
  | ok plan =>
    obtain ⟨requested, selected, h⟩ := perEgress_iff hplan
    exact ⟨plan, requested, selected, rfl, h⟩

end TrexCli.TrafficPlan
