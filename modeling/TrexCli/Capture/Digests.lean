import TrexCli.Capture.Datagram

/-!
# What the digests of a flow are of

The octets that are hashed can be read back: a flow digest is of the endpoints and the datagrams of
the flow, and a template digest of the responder's port and the datagrams. The only failure is an
offset that does not fit in eight octets.
-/

namespace TrexCli.Capture

theorem toBytes_eq_ok {size n : Nat} {octets : Bytes} :
    toBytes size n = .ok octets ↔ n < 256 ^ size ∧ bigEndian size n = octets := by
  unfold toBytes
  split
  · rename_i h
    simp [h]
  · rename_i h
    simp [h]

/-- The offset fits in its field. -/
def Datagram.Encodable (datagram : Datagram) : Prop := datagram.offsetMicroseconds < 256 ^ 8

instance (datagram : Datagram) : Decidable datagram.Encodable :=
  inferInstanceAs (Decidable (_ < _))

/-- The octets of a datagram in a digest. -/
def Datagram.encode (datagram : Datagram) : Bytes :=
  [datagram.direction.tag] ++
    (bigEndian 8 datagram.offsetMicroseconds ++ lengthPrefixed 8 datagram.payload.octets)

theorem Direction.tag_inj {d e : Direction} (h : d.tag = e.tag) : d = e := by
  cases d <;> cases e <;> first | rfl | exact absurd h (by decide)

theorem Payload.length_lt_field (payload : Payload) : payload.length < 256 ^ 8 :=
  payload.length_lt.trans (by decide)

theorem Payload.octets_inj {p q : Payload} (h : p.octets = q.octets) : p = q := by
  obtain ⟨_, _⟩ := p
  subst h
  rfl

theorem selfDelimiting_encode : SelfDelimiting Datagram.Encodable Datagram.encode := by
  have htag : SelfDelimiting (fun _ : Direction => True) fun d => [d.tag] :=
    .of_length (n := 1) (fun _ _ => rfl) fun d e _ _ h => Direction.tag_inj (List.singleton_inj.mp h)
  have hfields := htag.append ((selfDelimiting_bigEndian 8).append (selfDelimiting_lengthPrefixed 8))
  refine hfields.comap (f := fun d : Datagram =>
    (d.direction, d.offsetMicroseconds, d.payload.octets)) ?_ ?_
  · rintro ⟨direction, offset, payload⟩ ⟨direction', offset', payload'⟩ h
    simp only [Prod.mk.injEq] at h
    obtain ⟨rfl, rfl, hoctets⟩ := h
    rw [Payload.octets_inj hoctets]
  · exact fun d hd => ⟨trivial, hd, d.payload.length_lt_field⟩

/-- The datagrams of a flow are encoded one after another. -/
theorem updateDatagrams_eq_ok {datagrams : List Datagram} {octets : Bytes} :
    DatagramFlow.updateDatagrams datagrams = .ok octets ↔
      (∀ d ∈ datagrams, d.Encodable) ∧ datagrams.flatMap Datagram.encode = octets := by
  induction datagrams generalizing octets with
  | nil => simp [DatagramFlow.updateDatagrams]
  | cons d rest ih =>
    have hlength : toBytes 8 d.payload.length = .ok (bigEndian 8 d.payload.length) :=
      toBytes_eq_ok.mpr ⟨d.payload.length_lt_field, rfl⟩
    simp only [DatagramFlow.updateDatagrams, bind_eq_ok, hlength, toBytes_eq_ok, ih,
      List.forall_mem_cons]
    constructor
    · rintro ⟨_, ⟨hd, rfl⟩, _, hsame, _, ⟨hrest, rfl⟩, heq⟩
      obtain rfl := Except.ok.inj hsame
      refine ⟨⟨hd, hrest⟩, ?_⟩
      rw [← Except.ok.inj heq, List.flatMap_cons]
      simp [Datagram.encode, lengthPrefixed]
    · rintro ⟨⟨hd, hrest⟩, rfl⟩
      refine ⟨_, ⟨hd, rfl⟩, _, rfl, _, ⟨hrest, rfl⟩, ?_⟩
      show Except.ok _ = Except.ok _
      rw [List.flatMap_cons]
      simp [Datagram.encode, lengthPrefixed]

/-- The encodings of the datagrams have one reading. -/
theorem datagrams_inj {xs ys : List Datagram} (hxs : ∀ d ∈ xs, d.Encodable)
    (hys : ∀ d ∈ ys, d.Encodable) (h : xs.flatMap Datagram.encode = ys.flatMap Datagram.encode) :
    xs = ys :=
  selfDelimiting_encode.flatMap_injOn (fun d _ => by simp [Datagram.encode]) hxs hys h

theorem selfDelimiting_port : SelfDelimiting (fun _ : UInt16 => True) fun p => bigEndian 2 p.toNat :=
  (selfDelimiting_bigEndian 2).comap (fun _ _ => UInt16.toNat_inj.mp) fun p _ => p.toNat_lt

theorem selfDelimiting_endpoint : SelfDelimiting (fun _ : Endpoint => True) Endpoint.octets := by
  have haddress : SelfDelimiting (fun _ : PackedIpv4 => True) fun a => a.toList :=
    .of_length (n := 4) (fun a _ => a.toList_length) fun a b _ _ h => List.Vector.eq a b h
  exact (haddress.append selfDelimiting_port).comap (f := fun e => e) (fun _ _ h => h)
    fun _ _ => ⟨trivial, trivial⟩

namespace DatagramFlow

variable {f g : DatagramFlow} {octets : Bytes}

theorem flowOctets_eq_ok : f.flowOctets = .ok octets ↔ (∀ d ∈ f.datagrams, d.Encodable) ∧
    f.initiator.octets ++ f.responder.octets ++ f.datagrams.flatMap Datagram.encode = octets := by
  simp only [flowOctets, bind_eq_ok, updateDatagrams_eq_ok]
  constructor
  · rintro ⟨_, ⟨hd, rfl⟩, heq⟩
    exact ⟨hd, Except.ok.inj heq⟩
  · rintro ⟨hd, rfl⟩
    exact ⟨_, ⟨hd, rfl⟩, rfl⟩

theorem templateOctets_eq_ok : f.templateOctets = .ok octets ↔ (∀ d ∈ f.datagrams, d.Encodable) ∧
    bigEndian 2 f.responder.2.toNat ++ f.datagrams.flatMap Datagram.encode = octets := by
  simp only [templateOctets, bind_eq_ok, updateDatagrams_eq_ok]
  constructor
  · rintro ⟨_, ⟨hd, rfl⟩, heq⟩
    exact ⟨hd, Except.ok.inj heq⟩
  · rintro ⟨hd, rfl⟩
    exact ⟨_, ⟨hd, rfl⟩, rfl⟩

/-- Flows with the same octets in their digests have the same endpoints and datagrams. -/
theorem flowOctets_inj (hf : f.flowOctets = .ok octets) (hg : g.flowOctets = .ok octets) :
    f.initiator = g.initiator ∧ f.responder = g.responder ∧ f.datagrams = g.datagrams := by
  obtain ⟨hdf, hf⟩ := flowOctets_eq_ok.mp hf
  obtain ⟨hdg, hg⟩ := flowOctets_eq_ok.mp hg
  have heq := hf.trans hg.symm
  simp only [List.append_assoc] at heq
  obtain ⟨hinitiator, heq⟩ := selfDelimiting_endpoint trivial trivial heq
  obtain ⟨hresponder, heq⟩ := selfDelimiting_endpoint trivial trivial heq
  exact ⟨hinitiator, hresponder, datagrams_inj hdf hdg heq⟩

/-- Flows with the same octets in their template digests have the same responder port and
datagrams. -/
theorem templateOctets_inj (hf : f.templateOctets = .ok octets)
    (hg : g.templateOctets = .ok octets) :
    f.responder.2 = g.responder.2 ∧ f.datagrams = g.datagrams := by
  obtain ⟨hdf, hf⟩ := templateOctets_eq_ok.mp hf
  obtain ⟨hdg, hg⟩ := templateOctets_eq_ok.mp hg
  obtain ⟨hport, heq⟩ := selfDelimiting_port trivial trivial (hf.trans hg.symm)
  exact ⟨hport, datagrams_inj hdf hdg heq⟩

end DatagramFlow

end TrexCli.Capture
