import TrexCli.Capture.Session

/-!
# What a digest identifies

The octets that the analyzers hash for a session and for a flow, and for their templates, have one
reading. In the octets of a session a generation after the first is written between the endpoints and
the exchanges; its tag begins with no tag of an exchange.
-/

namespace TrexCli.Capture

/-- The payload fits the length field. -/
def Exchange.Encodable (exchange : Exchange) : Prop := exchange.2.length < 256 ^ 8

/-- The octets of an exchange in a digest. -/
def Exchange.encode (exchange : Exchange) : Bytes := [exchange.1.tag] ++ lengthPrefixed 8 exchange.2

theorem Side.tag_inj {s t : Side} (h : s.tag = t.tag) : s = t := by
  cases s <;> cases t <;> first | rfl | exact absurd h (by decide)

theorem selfDelimiting_exchange : SelfDelimiting Exchange.Encodable Exchange.encode := by
  have htag : SelfDelimiting (fun _ : Side => True) fun s => [s.tag] :=
    .of_length (n := 1) (fun _ _ => rfl) fun s t _ _ h => Side.tag_inj (List.singleton_inj.mp h)
  exact (htag.append (selfDelimiting_lengthPrefixed 8)).comap (f := fun e : Exchange => e)
    (fun _ _ h => h) fun _ he => ⟨trivial, he⟩

/-- The exchanges of a flow are encoded one after another. -/
theorem updateExchanges_eq_ok {exchanges : List Exchange} {octets : Bytes} :
    SessionFlow.updateExchanges exchanges = .ok octets ↔
      (∀ e ∈ exchanges, e.Encodable) ∧ exchanges.flatMap Exchange.encode = octets := by
  induction exchanges generalizing octets with
  | nil => simp [SessionFlow.updateExchanges]
  | cons e rest ih =>
    simp only [SessionFlow.updateExchanges, bind_eq_ok, toBytes_eq_ok, ih, List.forall_mem_cons]
    constructor
    · rintro ⟨_, ⟨he, rfl⟩, _, ⟨hrest, rfl⟩, heq⟩
      refine ⟨⟨he, hrest⟩, ?_⟩
      rw [← Except.ok.inj heq, List.flatMap_cons]
      simp [Exchange.encode, lengthPrefixed]
    · rintro ⟨⟨he, hrest⟩, rfl⟩
      refine ⟨_, ⟨he, rfl⟩, _, ⟨hrest, rfl⟩, ?_⟩
      show Except.ok _ = Except.ok _
      rw [List.flatMap_cons]
      simp [Exchange.encode, lengthPrefixed]

theorem exchanges_inj {xs ys : List Exchange} (hxs : ∀ e ∈ xs, e.Encodable)
    (hys : ∀ e ∈ ys, e.Encodable) (h : xs.flatMap Exchange.encode = ys.flatMap Exchange.encode) :
    xs = ys :=
  selfDelimiting_exchange.flatMap_injOn (fun e _ => by simp [Exchange.encode]) hxs hys h

/-! ### Generations -/

/-- A generation after its tag. -/
def generationField (generation : Nat) : Bytes := SessionFlow.generationTag ++ bigEndian 8 generation

theorem selfDelimiting_generationField :
    SelfDelimiting (fun n => n < 256 ^ 8) generationField := by
  refine .of_length (n := 19) (fun n _ => ?_) fun m n hm hn h => ?_
  · rw [generationField, List.length_append, length_bigEndian]
    rfl
  · exact bigEndian_inj hm hn (List.append_cancel_left h)

namespace SessionFlow

variable {f g : SessionFlow} {octets : Bytes}

/-- The generation that is written. -/
def writtenGeneration (f : SessionFlow) : Option Nat :=
  if f.generation = 0 then none else some f.generation

theorem generation_eq_of_written (h : f.writtenGeneration = g.writtenGeneration) :
    f.generation = g.generation := by
  unfold writtenGeneration at h
  split at h <;> split at h <;> simp_all

theorem generationOctets_eq_ok : f.generationOctets = .ok octets ↔
    (∀ n ∈ f.writtenGeneration, n < 256 ^ 8) ∧
      f.writtenGeneration.elim [] generationField = octets := by
  unfold generationOctets writtenGeneration
  by_cases hzero : f.generation = 0
  · simp [hzero]
  · simp only [if_neg hzero, bind_eq_ok, toBytes_eq_ok, Option.mem_some_iff, forall_eq',
      Option.elim_some]
    constructor
    · rintro ⟨_, ⟨hlt, rfl⟩, heq⟩
      exact ⟨hlt, Except.ok.inj heq⟩
    · rintro ⟨hlt, rfl⟩
      exact ⟨_, ⟨hlt, rfl⟩, rfl⟩

theorem sessionOctets_eq_ok : f.sessionOctets = .ok octets ↔
    (∀ n ∈ f.writtenGeneration, n < 256 ^ 8) ∧ (∀ e ∈ f.exchanges, e.Encodable) ∧
      f.client.octets ++ f.server.octets ++ f.writtenGeneration.elim [] generationField ++
        f.exchanges.flatMap Exchange.encode = octets := by
  simp only [sessionOctets, bind_eq_ok, generationOctets_eq_ok, updateExchanges_eq_ok]
  constructor
  · rintro ⟨_, ⟨hgeneration, rfl⟩, _, ⟨hexchanges, rfl⟩, heq⟩
    exact ⟨hgeneration, hexchanges, Except.ok.inj heq⟩
  · rintro ⟨hgeneration, hexchanges, rfl⟩
    exact ⟨_, ⟨hgeneration, rfl⟩, _, ⟨hexchanges, rfl⟩, rfl⟩

theorem templateOctets_eq_ok : f.templateOctets = .ok octets ↔ (∀ e ∈ f.exchanges, e.Encodable) ∧
    bigEndian 2 f.server.2.toNat ++ f.exchanges.flatMap Exchange.encode = octets := by
  simp only [templateOctets, bind_eq_ok, updateExchanges_eq_ok]
  constructor
  · rintro ⟨_, ⟨hexchanges, rfl⟩, heq⟩
    exact ⟨hexchanges, Except.ok.inj heq⟩
  · rintro ⟨hexchanges, rfl⟩
    exact ⟨_, ⟨hexchanges, rfl⟩, rfl⟩

/-- Sessions with the same octets have the same endpoints, generation and exchanges. -/
theorem sessionOctets_inj (hf : f.sessionOctets = .ok octets) (hg : g.sessionOctets = .ok octets) :
    f.client = g.client ∧ f.server = g.server ∧ f.generation = g.generation ∧
      f.exchanges = g.exchanges := by
  obtain ⟨hgf, hef, hf⟩ := sessionOctets_eq_ok.mp hf
  obtain ⟨hgg, heg, hg⟩ := sessionOctets_eq_ok.mp hg
  have heq := hf.trans hg.symm
  simp only [List.append_assoc] at heq
  obtain ⟨hclient, heq⟩ := selfDelimiting_endpoint trivial trivial heq
  obtain ⟨hserver, heq⟩ := selfDelimiting_endpoint trivial trivial heq
  -- the tag of a generation begins with a letter that is no side
  have hhead : ∀ (n : Nat) (e : Exchange), (generationField n).head? ≠ e.encode.head? := by
    rintro n ⟨side, payload⟩
    cases side <;> simp [generationField, generationTag, Exchange.encode, Side.tag]
  obtain ⟨hgeneration, hexchanges⟩ := selfDelimiting_generationField.optional_flatMap_injOn
    selfDelimiting_exchange (fun n e _ _ => hhead n e) (fun e _ => by simp [Exchange.encode])
    (fun n _ => by simp [generationField, generationTag]) hgf hgg hef heg heq
  exact ⟨hclient, hserver, generation_eq_of_written hgeneration, hexchanges⟩

/-- Sessions with the same octets in their template digests have the same server port and exchanges. -/
theorem templateOctets_inj (hf : f.templateOctets = .ok octets)
    (hg : g.templateOctets = .ok octets) :
    f.server.2 = g.server.2 ∧ f.exchanges = g.exchanges := by
  obtain ⟨hef, hf⟩ := templateOctets_eq_ok.mp hf
  obtain ⟨heg, hg⟩ := templateOctets_eq_ok.mp hg
  obtain ⟨hport, heq⟩ := selfDelimiting_port trivial trivial (hf.trans hg.symm)
  exact ⟨hport, exchanges_inj hef heg heq⟩

end SessionFlow

/-! ### Identification -/

/-- What is hashed of a flow determines a part of it, and so does its digest when the hash does not
collide on the flows at hand. -/
structure Identifies {φ β : Type} (octets : φ → Except AnalysisError Bytes) (part : φ → β) : Prop where
  encoding : ∀ f g text, octets f = .ok text → octets g = .ok text → part f = part g
  digest : ∀ (sha256 : Bytes → Digest) (flows : List φ),
    Set.InjOn sha256 {text | ∃ flow ∈ flows, octets flow = .ok text} →
      ∀ f ∈ flows, ∀ g ∈ flows, ∀ digest, sha256 <$> octets f = .ok digest →
        sha256 <$> octets g = .ok digest → part f = part g

theorem Identifies.of_encoding {φ β : Type} {octets : φ → Except AnalysisError Bytes} {part : φ → β}
    (h : ∀ f g text, octets f = .ok text → octets g = .ok text → part f = part g) :
    Identifies octets part := by
  refine ⟨h, fun sha256 flows hsha f hf g hg digest hfd hgd => ?_⟩
  obtain ⟨text, hft, hfe⟩ := map_eq_ok.mp hfd
  obtain ⟨text', hgt, hge⟩ := map_eq_ok.mp hgd
  obtain rfl : text = text' := hsha ⟨f, hf, hft⟩ ⟨g, hg, hgt⟩ (hfe.trans hge.symm)
  exact h f g text hft hgt

/-- The digests of sessions and flows, and those of their templates, identify what they are of. -/
theorem digests_identify :
    Identifies SessionFlow.sessionOctets (fun f => (f.client, f.server, f.generation, f.exchanges)) ∧
    Identifies SessionFlow.templateOctets (fun f => (f.server.2, f.exchanges)) ∧
    Identifies DatagramFlow.flowOctets (fun f => (f.initiator, f.responder, f.datagrams)) ∧
    Identifies DatagramFlow.templateOctets (fun f => (f.responder.2, f.datagrams)) := by
  refine ⟨.of_encoding fun f g text hf hg => ?_, .of_encoding fun f g text hf hg => ?_,
    .of_encoding fun f g text hf hg => ?_, .of_encoding fun f g text hf hg => ?_⟩
  · obtain ⟨hclient, hserver, hgeneration, hexchanges⟩ := SessionFlow.sessionOctets_inj hf hg
    rw [hclient, hserver, hgeneration, hexchanges]
  · obtain ⟨hport, hexchanges⟩ := SessionFlow.templateOctets_inj hf hg
    rw [hport, hexchanges]
  · obtain ⟨hinitiator, hresponder, hdatagrams⟩ := DatagramFlow.flowOctets_inj hf hg
    rw [hinitiator, hresponder, hdatagrams]
  · obtain ⟨hport, hdatagrams⟩ := DatagramFlow.templateOctets_inj hf hg
    rw [hport, hdatagrams]

end TrexCli.Capture
