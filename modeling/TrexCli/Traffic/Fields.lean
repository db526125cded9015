import TrexCli.Traffic.Frames

/-!
# Declared fields

The fields that a packet declares in a frame, and what the instructions of the compiler do to them. A
field holds one value, or it varies over a range, or it is a checksum; the instructions write the lower
octets of the fields that vary. Of fields that share no octet each holds what its own instructions make
of it, and that is exactly the values of its range.
-/

namespace TrexCli

/-! ### Declared fields -/

/-- How many octets of a field the variable of a layer is. -/
def VariableLayer.width : VariableLayer → Nat
  | ethernet | ip => 4
  | ipv6 => 8
  | udp | tcp => 2

/-- What a packet declares of a field. -/
inductive Content where
  | fixed (value : Nat)
  | varying (name : VariableName) (first last : Nat) (mode : VariationMode)
  | checksum

/-- A field of a frame. -/
structure Field where
  offset : Nat
  size : Nat
  content : Content

/-- The variable of a field that varies. -/
def Field.name? (field : Field) : Option VariableName :=
  match field.content with
  | .varying name _ _ _ => some name
  | _ => none

/-- The field may hold the number. -/
def Field.Holds (field : Field) (n : Nat) : Prop :=
  match field.content with
  | .fixed value => n = value
  | .varying _ first last _ => first ≤ n ∧ n ≤ last
  | .checksum => True

theorem Field.holds_of_checksum {field : Field} (h : field.content = .checksum) (n : Nat) :
    field.Holds n := by
  rw [Field.Holds, h]
  trivial

/-- The offset lies in the field. -/
def Field.Covers (field : Field) (i : Nat) : Prop := field.offset ≤ i ∧ i < field.offset + field.size

/-- Two fields that share no octet. -/
def Field.Apart (a b : Field) : Prop := a.offset + a.size ≤ b.offset ∨ b.offset + b.size ≤ a.offset

def MacOrVariation.content (name : VariableName) : MacOrVariation → Content
  | .value m => .fixed m.value
  | .variation v => .varying name v.first.value v.last.value v.mode

def AddressOrVariation.content {version : IpVersion} (name : VariableName) :
    AddressOrVariation version → Content
  | .value a _ => .fixed a
  | .variation v => .varying name v.first v.last v.mode

def PortOrVariation.content (name : VariableName) : PortOrVariation → Content
  | .value port _ => .fixed port
  | .variation v => .varying name v.first v.last v.mode

/-- The flags of a TCP header, a bit for each letter of `FSRPAUEC`. -/
def tcpFlags (flags : String) : Nat :=
  flags.toList.foldl (fun bits c => bits ||| 2 ^ "FSRPAUEC".toList.idxOf c) 0 % 256

section Layout

variable (variablePrefix : String)

/-- The fields of a network header. -/
def NetworkHeader.fields (l3 : Nat) : NetworkHeader → List Field
  | .ipv4 header =>
    [⟨l3 + 12, 4, header.src.content ⟨variablePrefix, .ip, .src⟩⟩,
      ⟨l3 + 16, 4, header.dst.content ⟨variablePrefix, .ip, .dst⟩⟩,
      ⟨l3 + 8, 1, .fixed header.hops⟩, ⟨l3 + 10, 2, .checksum⟩]
  | .ipv6 header =>
    [⟨l3 + 8, 16, header.src.content ⟨variablePrefix, .ipv6, .src⟩⟩,
      ⟨l3 + 24, 16, header.dst.content ⟨variablePrefix, .ipv6, .dst⟩⟩, ⟨l3 + 7, 1, .fixed header.hops⟩]

/-- The fields of a transport header. -/
def TransportHeader.fields (l4 : Nat) : TransportHeader → List Field
  | .udp srcPort dstPort =>
    [⟨l4, 2, srcPort.content ⟨variablePrefix, .udp, .src⟩⟩,
      ⟨l4 + 2, 2, dstPort.content ⟨variablePrefix, .udp, .dst⟩⟩, ⟨l4 + 6, 2, .checksum⟩]
  | .tcp srcPort dstPort flags =>
    [⟨l4, 2, srcPort.content ⟨variablePrefix, .tcp, .src⟩⟩,
      ⟨l4 + 2, 2, dstPort.content ⟨variablePrefix, .tcp, .dst⟩⟩, ⟨l4 + 13, 1, .fixed (tcpFlags flags)⟩,
      ⟨l4 + 16, 2, .checksum⟩]
  | .icmp type code => [⟨l4, 1, .fixed type.toNat⟩, ⟨l4 + 1, 1, .fixed code.toNat⟩]

/-- The fields of the headers. -/
def PacketHeaders.fields (packet : PacketHeaders) : List Field :=
  [⟨6, 6, packet.ethernet.src.content ⟨variablePrefix, .ethernet, .src⟩⟩,
    ⟨0, 6, packet.ethernet.dst.content ⟨variablePrefix, .ethernet, .dst⟩⟩] ++
  packet.vlan.toList.map (fun vlan => ⟨14, 2, .fixed (vlan.priority * 2 ^ 13 + vlan.id)⟩) ++
  packet.network.toList.flatMap (NetworkHeader.fields variablePrefix packet.l3Offset) ++
  packet.transport.toList.flatMap (TransportHeader.fields variablePrefix packet.l4Offset)

/-- How long the headers are. -/
def PacketHeaders.headersLength (packet : PacketHeaders) : Nat := (packet.built false []).length

/-- The payload, and the zeros that fill the frame. -/
def Packet.load (packet : Packet) : List UInt8 :=
  packet.payload ++
    List.replicate (packet.frameSize - 4 - packet.headersLength - packet.payload.length) 0

/-- The octets of a load. -/
def loadFields : Nat → List UInt8 → List Field
  | _, [] => []
  | offset, octet :: load => ⟨offset, 1, .fixed octet.toNat⟩ :: loadFields (offset + 1) load

/-- The fields of the frame: those of the headers, and the octets of the load. -/
def Packet.fields (packet : Packet) : List Field :=
  packet.toPacketHeaders.fields variablePrefix ++ loadFields packet.headersLength packet.load

end Layout

/-- The fields share no octet and lie between two offsets. -/
def Laid (low high : Nat) (fields : List Field) : Prop :=
  fields.Pairwise Field.Apart ∧ ∀ field ∈ fields, low ≤ field.offset ∧ field.offset + field.size ≤ high

theorem Laid.append {low mid high : Nat} {fields fields' : List Field} (h : Laid low mid fields)
    (h' : Laid mid high fields') (hlow : low ≤ mid) (hhigh : mid ≤ high) :
    Laid low high (fields ++ fields') := by
  refine ⟨List.pairwise_append.mpr ⟨h.1, h'.1, fun field hfield other hother => .inl ?_⟩,
    fun field hfield => ?_⟩
  · exact (h.2 field hfield).2.trans (h'.2 other hother).1
  · rcases List.mem_append.mp hfield with hleft | hright
    · exact ⟨(h.2 field hleft).1, (h.2 field hleft).2.trans hhigh⟩
    · exact ⟨hlow.trans (h'.2 field hright).1, (h'.2 field hright).2⟩

/-! ### Frames -/

/-- `len` of the headers -/
def BuiltPacket.headersLength (b : BuiltPacket) : Nat :=
  b.l3Offset + b.networkLength + b.transportLength

/-- The octets of the headers, with the flags of a TCP header. -/
def BuiltPacket.headerBytes (b : BuiltPacket) (rest : Octets) : Octets :=
  match b.transport with
  | some (.tcp _ _ flags) =>
    (b.octets rest).write (b.l3Offset + b.networkLength + 13) 1 (tcpFlags flags)
  | _ => b.octets rest

/-- The octets of a packet: of the headers, and of the load. -/
def BuiltPacket.bytes (b : BuiltPacket) (rest : Octets) : Octets := fun i =>
  if b.headersLength ≤ i then b.load.getD (i - b.headersLength) (rest i) else b.headerBytes rest i

/-- The frame that the instructions make with the values of the variables. -/
def PacketPlan.frame (plan : PacketPlan) (rest sums : Octets) (values : VariableName → Nat) : Frame :=
  (runVm values sums plan.vm ⟨plan.built.bytes rest, fun _ => 0⟩).octets

/-- The plan varies what the fields declare. -/
structure PacketPlan.Compiles (plan : PacketPlan) (fields : List Field) : Prop where
  inside : ∀ field ∈ fields, field.offset + field.size ≤ plan.built.length
  apart : fields.Pairwise Field.Apart
  names : (fields.filterMap Field.name?).Nodup
  writes : ∀ name offset, .wrFlowVar name offset ∈ plan.vm → ∃ field ∈ fields,
    field.name? = some name ∧ field.offset ≤ offset ∧ ∃ minValue maxValue size op,
      .flowVar name minValue maxValue size op ∈ plan.vm ∧ offset + size = field.offset + field.size
  initial : ∀ rest, ∀ field ∈ fields,
    field.Holds ((plan.built.bytes rest).read field.offset field.size)
  sound : ∀ rest sums values, Admits plan.vm values → ∀ field ∈ fields,
    field.Holds ((plan.frame rest sums values).read field.offset field.size)
  complete : ∀ rest sums (choice : VariableName → Nat),
    (∀ field ∈ fields, ∀ name, field.name? = some name → field.Holds (choice name)) →
      ∃ values, Admits plan.vm values ∧ ∀ field ∈ fields, ∀ name, field.name? = some name →
        (plan.frame rest sums values).read field.offset field.size = choice name
  others : ∀ rest sums values i,
    (∀ field ∈ fields, field.Covers i → ∃ value, field.content = .fixed value) →
      plan.frame rest sums values i = plan.built.bytes rest i

/-! ### One field -/

/-- The instructions of a field. -/
def Field.vm (field : Field) : List VmInstruction :=
  match field.content with
  | .varying name first last mode =>
    flowVariable name (first % 256 ^ name.layer.width) (last % 256 ^ name.layer.width) name.layer.width
      mode (field.offset + (field.size - name.layer.width))
  | _ => []

/-- What the instructions of a field do to the octets. -/
def Field.put (values : VariableName → Nat) (field : Field) (m : Octets) : Octets :=
  match field.content with
  | .varying name _ _ _ =>
    m.write (field.offset + (field.size - name.layer.width)) name.layer.width (values name)
  | _ => m

/-- The values fit the field, and the variable does. -/
def Field.Fits (field : Field) : Prop :=
  match field.content with
  | .fixed value => value < 256 ^ field.size
  | .varying name first last _ =>
    name.layer.width ≤ field.size ∧ first ≤ last ∧ last < 256 ^ field.size
  | .checksum => True

/-- The values of a range have the octets in common that do not vary. -/
def Field.OnePrefix (field : Field) : Prop :=
  match field.content with
  | .varying name first last _ => first / 256 ^ name.layer.width = last / 256 ^ name.layer.width
  | _ => True

instance : Std.Symm Field.Apart := ⟨fun _ _ => Or.symm⟩

section Put

variable {values : VariableName → Nat} {field : Field} {m : Octets}

theorem Field.put_apply {i : Nat} (hfits : field.Fits)
    (h : field.Covers i → ∃ value, field.content = .fixed value) : field.put values m i = m i := by
  rcases field with ⟨offset, size, _ | ⟨name, first, last, mode⟩ | _⟩
  · rfl
  · have hwidth : name.layer.width ≤ size := hfits.1
    refine if_neg fun hi => ?_
    obtain ⟨hlow, hhigh⟩ : offset + (size - name.layer.width) ≤ i ∧
      i < offset + (size - name.layer.width) + name.layer.width := hi
    obtain ⟨value, hvalue⟩ := h (show offset ≤ i ∧ i < offset + size by omega)
    cases hvalue
  · rfl

theorem Field.read_put_of_apart {other : Field} (hfits : field.Fits) (h : field.Apart other) :
    (field.put values m).read other.offset other.size = m.read other.offset other.size := by
  refine Octets.read_congr fun i hlow hhigh => Field.put_apply hfits fun hcovers => ?_
  have hfield : field.offset ≤ i ∧ i < field.offset + field.size := hcovers
  have hends : field.offset + field.size ≤ other.offset ∨ other.offset + other.size ≤ field.offset := h
  omega

theorem Field.put_congr {m' : Octets} {i : Nat} (h : m i = m' i) :
    field.put values m i = field.put values m' i := by
  rcases field with ⟨offset, size, _ | ⟨name, first, last, mode⟩ | _⟩
  · exact h
  · show (if _ then _ else m i) = if _ then _ else m' i
    rw [h]
  · exact h

/-- A field that varies keeps its upper octets. -/
theorem Field.read_put_varying {offset size first last : Nat} {name : VariableName}
    {mode : VariationMode} (hwidth : name.layer.width ≤ size) :
    ((⟨offset, size, .varying name first last mode⟩ : Field).put values m).read offset size =
      m.read offset size / 256 ^ name.layer.width * 256 ^ name.layer.width +
        values name % 256 ^ name.layer.width := by
  have h := Octets.read_write_suffix m offset (size - name.layer.width) name.layer.width (values name)
  rwa [Nat.sub_add_cancel hwidth] at h

end Put

/-- Numbers of a range with other lower parts, between those of the ends, stay in the range. -/
theorem between_of_lower {first last n w W : Nat} (hfirst : first ≤ n) (hlast : n ≤ last)
    (hlow : first % W ≤ w) (hhigh : w ≤ last % W) (hw : w < W) :
    first ≤ n / W * W + w ∧ n / W * W + w ≤ last := by
  have hfirstParts := Nat.div_add_mod' first W
  have hlastParts := Nat.div_add_mod' last W
  have hfirstMod : first % W < W := Nat.mod_lt _ (by omega)
  constructor
  · rcases (Nat.div_le_div_right hfirst : first / W ≤ n / W).eq_or_lt with heq | hlt
    · rw [← heq]
      omega
    · have hnext : (first / W + 1) * W ≤ n / W * W := Nat.mul_le_mul_right W hlt
      rw [Nat.add_mul] at hnext
      omega
  · rcases (Nat.div_le_div_right hlast : n / W ≤ last / W).eq_or_lt with heq | hlt
    · rw [heq]
      omega
    · have hnext : (n / W + 1) * W ≤ last / W * W := Nat.mul_le_mul_right W hlt
      rw [Nat.add_mul] at hnext
      omega

/-- The field holds what the packet is built with, and the instructions keep it so. -/
theorem Field.holds_put {field : Field} {values : VariableName → Nat} {m : Octets}
    (hfits : field.Fits) (hinitial : field.Holds (m.read field.offset field.size))
    (hadmits : Admits field.vm values) :
    field.Holds ((field.put values m).read field.offset field.size) := by
  rcases field with ⟨offset, size, value | ⟨name, first, last, mode⟩ | _⟩
  · exact hinitial
  · obtain ⟨hlow, hhigh⟩ := hadmits name _ _ _ mode List.mem_cons_self
    obtain ⟨hfirst, hlast⟩ : first ≤ m.read offset size ∧ m.read offset size ≤ last := hinitial
    have hpos : 0 < 256 ^ name.layer.width := by positivity
    have hlt : values name < 256 ^ name.layer.width := hhigh.trans_lt (Nat.mod_lt _ hpos)
    show first ≤ _ ∧ _ ≤ last
    rw [Field.read_put_varying hfits.1, Nat.mod_eq_of_lt hlt]
    exact between_of_lower hfirst hlast hlow hhigh hlt
  · trivial

/-- Each value of the range is written by its lower octets. -/
theorem Field.put_choice {field : Field} {values : VariableName → Nat} {m : Octets} {n : Nat}
    {name : VariableName} (hfits : field.Fits) (hone : field.OnePrefix)
    (hinitial : field.Holds (m.read field.offset field.size)) (hname : field.name? = some name)
    (hchoice : field.Holds n) (hvalues : values name = n % 256 ^ name.layer.width) :
    (field.put values m).read field.offset field.size = n := by
  rcases field with ⟨offset, size, value | ⟨name', first, last, mode⟩ | _⟩
  · cases hname
  · obtain rfl : name' = name := Option.some.inj hname
    have hupper : first / 256 ^ name'.layer.width = last / 256 ^ name'.layer.width := hone
    obtain ⟨hfirst, hlast⟩ : first ≤ m.read offset size ∧ m.read offset size ≤ last := hinitial
    obtain ⟨hlow, hhigh⟩ : first ≤ n ∧ n ≤ last := hchoice
    have hkept : m.read offset size / 256 ^ name'.layer.width = n / 256 ^ name'.layer.width := by
      have hread := Nat.div_le_div_right (c := 256 ^ name'.layer.width) hlast
      have hread' := Nat.div_le_div_right (c := 256 ^ name'.layer.width) hfirst
      have hn := Nat.div_le_div_right (c := 256 ^ name'.layer.width) hlow
      have hn' := Nat.div_le_div_right (c := 256 ^ name'.layer.width) hhigh
      omega
    show (Field.put values _ m).read offset size = n
    rw [Field.read_put_varying hfits.1, hkept, hvalues, Nat.mod_mod, Nat.div_add_mod']
  · cases hname

/-! ### All fields -/

section Fields

variable {values : VariableName → Nat} {sums : Octets}

/-- The instructions of the fields, one after the other. -/
def putAll (values : VariableName → Nat) (fields : List Field) (m : Octets) : Octets :=
  fields.foldl (fun m field => field.put values m) m

theorem runVm_field (field : Field) (s : VmMachine) :
    (runVm values sums field.vm s).octets = field.put values s.octets := by
  rcases field with ⟨offset, size, _ | _ | _⟩
  · rfl
  · exact runVm_flowVariable _ _ _ _ _ _
  · rfl

theorem runVm_fields (fields : List Field) (s : VmMachine) :
    (runVm values sums (fields.flatMap Field.vm) s).octets = putAll values fields s.octets := by
  induction fields generalizing s with
  | nil => rfl
  | cons field fields ih =>
    rw [List.flatMap_cons, runVm_append, ih, runVm_field]
    rfl

theorem putAll_apply {fields : List Field} {m : Octets} {i : Nat}
    (hfits : ∀ field ∈ fields, field.Fits)
    (h : ∀ field ∈ fields, field.Covers i → ∃ value, field.content = .fixed value) :
    putAll values fields m i = m i := by
  induction fields generalizing m with
  | nil => rfl
  | cons field fields ih =>
    have hrest : putAll values fields (field.put values m) i = field.put values m i :=
      ih (fun other hother => hfits other (.tail _ hother)) fun other hother => h other (.tail _ hother)
    exact hrest.trans (Field.put_apply (hfits field List.mem_cons_self) (h field List.mem_cons_self))

/-- A field apart from all of the fields is unchanged. -/
theorem read_putAll_of_apart {fields : List Field} {m : Octets} {field : Field}
    (hfits : ∀ other ∈ fields, other.Fits) (h : ∀ other ∈ fields, field.Apart other) :
    (putAll values fields m).read field.offset field.size = m.read field.offset field.size := by
  induction fields generalizing m with
  | nil => rfl
  | cons first fields ih =>
    have hrest : (putAll values fields (first.put values m)).read field.offset field.size =
        (first.put values m).read field.offset field.size :=
      ih (fun other hother => hfits other (.tail _ hother)) fun other hother => h other (.tail _ hother)
    exact hrest.trans (Field.read_put_of_apart (hfits first List.mem_cons_self)
      (symm (h first List.mem_cons_self)))

/-- Of fields that are apart each is what its own instructions make of it. -/
theorem read_putAll {fields : List Field} {m : Octets} {field : Field}
    (hfits : ∀ other ∈ fields, other.Fits) (hapart : fields.Pairwise Field.Apart)
    (h : field ∈ fields) :
    (putAll values fields m).read field.offset field.size =
      (field.put values m).read field.offset field.size := by
  induction fields generalizing m with
  | nil => cases h
  | cons first fields ih =>
    obtain ⟨hfirst, hrest⟩ := List.pairwise_cons.mp hapart
    have hfitsRest : ∀ other ∈ fields, other.Fits := fun other hother =>
      hfits other (.tail _ hother)
    rcases List.mem_cons.mp h with rfl | hmem
    · exact read_putAll_of_apart hfitsRest hfirst
    · have hends : first.offset + first.size ≤ field.offset ∨
        field.offset + field.size ≤ first.offset := hfirst field hmem
      show (putAll values fields (first.put values m)).read field.offset field.size = _
      rw [ih hfitsRest hrest hmem]
      refine Octets.read_congr fun i hlow hhigh => Field.put_congr ?_
      refine Field.put_apply (hfits first List.mem_cons_self) fun hcovers => ?_
      have hcovered : first.offset ≤ i ∧ i < first.offset + first.size := hcovers
      omega

end Fields

end TrexCli
