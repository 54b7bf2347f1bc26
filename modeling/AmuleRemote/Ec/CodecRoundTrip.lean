import AmuleRemote.Ec.Wire

/-!
# Decoding inverts encoding

The bytes written for a tag are a wire form of it, up to the values: each is read
back as what decoding its encoding gives, which for the values that survive the
wire is the value itself.
-/

namespace Amule.Ec

theorem beforeZero_append (bs : QByteArray) (h : (0 : UInt8) ∉ bs) :
    beforeZero (bs ++ [0]) = bs := by
  rw [beforeZero, List.takeWhile_append_of_pos]
  · simp
  · intro b hb
    exact decide_eq_true fun h0 => h (h0 ▸ hb)

theorem paddedInt_toBytes {w v : ℕ} (h : v < 256 ^ w) :
    paddedInt w (BigEndian.toBytes w v) = .ofNat v := by
  have hval : (Octets.copyOf w (BigEndian.toBytes w v)).val = BigEndian.toBytes w v :=
    congrArg Subtype.val
      (Octets.copyOf_val (⟨BigEndian.toBytes w v, BigEndian.length_toBytes w v⟩ : Octets w))
  rw [paddedInt, hval, BigEndian.ofBytes_toBytes_of_lt h]

/-- On the wire a name loses its highest bit, and the lowest one is the children flag. -/
theorem toNat_nameWire (name : UInt16) (b : Bool) :
    ((name <<< 1) ||| (if b then 0 else 1)).toNat =
      2 * (name.toNat % 0x8000) + (!b).toNat := by
  have hshift : (name <<< 1).toNat = 2 * (name.toNat % 0x8000) := by
    have hpow : 2 ^ (1 % 16) = 2 := rfl
    simp only [UInt16.toNat_shiftLeft, Nat.shiftLeft_eq, UInt16.reduceToNat, hpow]
    omega
  cases b with
  | true => simp [hshift]
  | false =>
    rw [if_neg Bool.false_ne_true, UInt16.toNat_or, hshift]
    exact (Nat.two_pow_add_eq_or_of_lt (i := 1) (b := 1) (by decide) _).symm

/-- The children flag is recovered from the wire name, whatever the name. -/
theorem hasChildren_nameWire (name : UInt16) (b : Bool) :
    hasChildren ((name <<< 1) ||| (if b then 0 else 1)) = !b := by
  have hlowest : (((name <<< 1) ||| (if b then 0 else 1)) &&& 1).toNat = (!b).toNat := by
    have hlt := (!b).toNat_lt
    have hone : (1 : UInt16).toNat = 1 := rfl
    rw [UInt16.toNat_and, toNat_nameWire, hone, Nat.and_one_is_mod]
    omega
  have hzero : ((name <<< 1) ||| (if b then 0 else 1)) &&& 1 = 0 ↔ b = true := by
    rw [← UInt16.toNat_inj, hlowest]
    cases b <;> decide
  simp [hasChildren, hzero]

/-- A name below 0x8000 is recovered from the wire name. -/
theorem nameWire_shiftRight {name : UInt16} (h : name < 0x8000) (b : Bool) :
    ((name <<< 1) ||| (if b then 0 else 1)) >>> 1 = name := by
  have hlt : name.toNat < 0x8000 := UInt16.lt_iff_toNat_lt.mp h
  have hflag := (!b).toNat_lt
  have hpow : 2 ^ (1 % 16) = 2 := rfl
  apply UInt16.toNat_inj.mp
  rw [UInt16.toNat_shiftRight, toNat_nameWire]
  simp only [UInt16.reduceToNat, Nat.shiftRight_eq_div_pow, hpow]
  omega

section

variable [Qt]

/-- Values that survive the wire. -/
def TagValue.Faithful : TagValue → Prop
  | .bytes b => b ≠ []
  | .string s => s.Portable
  | .double _ => False
  | _ => True

theorem decodeValue_encodeInt (v : UInt64) :
    decodeValue (encodeInt v).1 (encodeInt v).2 = .int v := by
  have hlt := v.toNat_lt
  rw [encodeInt]
  split
  next h1 =>
    have hv : paddedInt 1 [v.toUInt8] = v := by
      have := paddedInt_toBytes (w := 1) (v := v.toNat) (by omega)
      simpa [BigEndian.toBytes] using this
    simp [hv]
  next h1 =>
    split
    next h2 =>
      have hv := paddedInt_toBytes (w := 2) (v := v.toNat) (by omega)
      have h16 : v.toUInt16.toNat = v.toNat := by
        rw [UInt64.toNat_toUInt16]
        omega
      simp [appendBE, h16, hv]
    next h2 =>
      split
      next h3 =>
        have hv := paddedInt_toBytes (w := 4) (v := v.toNat) (by omega)
        have h32 : v.toUInt32.toNat = v.toNat := by
          rw [UInt64.toNat_toUInt32]
          omega
        simp [appendBE, h32, hv]
      next h3 =>
        have hv := paddedInt_toBytes (w := 8) (v := v.toNat) hlt
        simp [appendBE, hv]

/-- The bytes of a faithful value are decoded to that value. -/
theorem decodeValue_encodeValue [LawfulQtUtf8] (v : TagValue) (h : v.Faithful) :
    decodeValue (encodeValue v).1 (encodeValue v).2 = v := by
  cases v with
  | empty => simp [encodeValue]
  | bytes b =>
    have hb : b ≠ [] := h
    simp [encodeValue, hb]
  | int i => exact decodeValue_encodeInt i
  | string s =>
    have hs : s.Portable := h
    have hz := LawfulQtUtf8.zero_notMem_toUtf8 s hs.2.1
    simp [encodeValue, beforeZero_append _ hz, LawfulQtUtf8.fromUtf8_toUtf8 s hs]
  | hash hash => simp [encodeValue]
  | ipv4 a =>
    obtain ⟨⟨ip, hip⟩, port⟩ := a
    have hport := BigEndian.ofBytes_toBytes_of_lt (w := 2) port.toNat_lt
    have hcopy := Octets.copyOf_append ⟨ip, hip⟩ (BigEndian.toBytes 2 port.toNat)
    have hdrop : (ip ++ BigEndian.toBytes 2 port.toNat).drop 4 =
        BigEndian.toBytes 2 port.toNat := by
      rw [← hip, List.drop_left]
    have htake : (BigEndian.toBytes 2 port.toNat).take 2 = BigEndian.toBytes 2 port.toNat :=
      List.take_of_length_le (by simp)
    simp only [] at hcopy
    simp [encodeValue, appendBE, hcopy, hdrop, htake, hport, hip]
  | double d => exact absurd h id

/-- A node the wire format can carry: the name leaves room for the children flag
    and the subtag count fits its field. -/
def Encodable (name : UInt16) (value : TagValue) (children : List Tag) : Prop :=
  name < 0x8000 ∧ children.length ≤ 65535 ∧ value.Faithful

/-- A packet the wire format can carry. -/
structure Packet.Encodable (p : Packet) : Prop where
  count : p.tags.length ≤ 65535
  nodes : Tag.ForallList Ec.Encodable p.tags
  size : p.payload.length < 2 ^ 32

/-! ## Encoded tags as wire forms -/

/-- A node that is laid out faithfully but for its value. -/
def Laid (name : UInt16) (_value : TagValue) (children : List Tag) : Prop :=
  name < 0x8000 ∧ children.length ≤ 65535

namespace WireTag

mutual

/-- The wire form that the encoder writes. -/
def ofTag : Tag → WireTag
  | ⟨name, value, children⟩ =>
    ⟨(name <<< 1) ||| (if children.isEmpty then 0 else 1), (encodeValue value).1,
      ofTags children, (encodeValue value).2⟩

def ofTags : List Tag → List WireTag
  | [] => []
  | t :: ts => ofTag t :: ofTags ts

end

@[simp] theorem length_ofTags (ts : List Tag) : (ofTags ts).length = ts.length := by
  induction ts with
  | nil => rfl
  | cons t ts ih => simp [ofTags, ih]

/-- The length field says how much follows it, as long as that fits. -/
theorem toNat_tagLen_of_lt {name : UInt16} {value : TagValue} {children : List Tag}
    (h : bodyLen ⟨name, value, children⟩ < 2 ^ 32) :
    (tagLen ⟨name, value, children⟩).toNat =
      (tagsBytes children).length + (encodeValue value).2.length := by
  rw [toNat_tagLen, Nat.mod_eq_of_lt h, length_tagsBytes, bodyLen, Nat.add_comm]

mutual

theorem bytes_ofTag : (t : Tag) → t.Forall Laid → wireLen t < 2 ^ 32 → (ofTag t).bytes = tagBytes t
  | ⟨name, value, children⟩, ⟨⟨_, hcount⟩, hkids⟩, hsize => by
    simp only [wireLen] at hsize
    have hchildren := bytesList_ofTags children hkids (by rw [bodyLen] at hsize; omega)
    have hlen := toNat_tagLen_of_lt (Nat.lt_of_add_left_lt hsize)
    have hcast : (UInt16.ofNat children.length).toNat = children.length :=
      UInt16.toNat_ofNat_of_lt' (Nat.lt_succ_of_le hcount)
    simp only [ofTag, bytes, tagBytes, hasChildren_nameWire, hchildren, hlen, hcast, length_ofTags]
    cases children with
    | nil => rfl
    | cons c cs => rfl

theorem bytesList_ofTags : (ts : List Tag) → Tag.ForallList Laid ts → wireLens ts < 2 ^ 32 →
    bytesList (ofTags ts) = tagsBytes ts
  | [], _, _ => rfl
  | t :: ts, ⟨ht, hts⟩, hsize => by
    have hsplit : wireLens (t :: ts) = wireLen t + wireLens ts := rfl
    rw [ofTags, bytesList, tagsBytes, bytes_ofTag t ht (by omega),
      bytesList_ofTags ts hts (by omega)]

end

mutual

theorem fits_ofTag : (t : Tag) → t.Forall Laid → wireLen t < 2 ^ 32 → (ofTag t).Fits
  | ⟨name, value, children⟩, ⟨⟨_, hcount⟩, hkids⟩, hsize => by
    simp only [wireLen, bodyLen] at hsize
    have hchildren := bytesList_ofTags children hkids (by omega)
    refine ⟨⟨fun hnot => ?_, ?_, ?_⟩, fits_ofTags children hkids (by omega)⟩
    · rw [hasChildren_nameWire] at hnot
      cases children with
      | nil => rfl
      | cons c cs => exact nomatch hnot
    · rwa [← length_ofTags] at hcount
    · show (bytesList (ofTags children)).length + (encodeValue value).2.length < 2 ^ 32
      rw [hchildren, length_tagsBytes]
      omega

theorem fits_ofTags : (ts : List Tag) → Tag.ForallList Laid ts → wireLens ts < 2 ^ 32 →
    ForallList FitsNode (ofTags ts)
  | [], _, _ => trivial
  | t :: ts, ⟨ht, hts⟩, hsize => by
    have hsplit : wireLens (t :: ts) = wireLen t + wireLens ts := rfl
    exact ⟨fits_ofTag t ht (by omega), fits_ofTags ts hts (by omega)⟩

end

end WireTag

namespace Tag

mutual

/-- A tag whose values have been encoded and decoded. -/
def recoded : Tag → Tag
  | ⟨name, value, children⟩ =>
    ⟨name, decodeValue (encodeValue value).1 (encodeValue value).2, recodedList children⟩

def recodedList : List Tag → List Tag
  | [] => []
  | t :: ts => recoded t :: recodedList ts

end

/-- The value is what decoding its encoding gives. -/
def Recodes (_name : UInt16) (value : TagValue) (_children : List Tag) : Prop :=
  decodeValue (encodeValue value).1 (encodeValue value).2 = value

mutual

theorem recoded_eq_iff : (t : Tag) → (t.recoded = t ↔ t.Forall Recodes)
  | ⟨name, value, children⟩ => by
    simp only [recoded, Tag.mk.injEq, true_and, recodedList_eq_iff children, Forall, Recodes]

theorem recodedList_eq_iff : (ts : List Tag) → (recodedList ts = ts ↔ ForallList Recodes ts)
  | [] => iff_of_true rfl trivial
  | t :: ts => by
    simp only [recodedList, List.cons.injEq, recoded_eq_iff t, recodedList_eq_iff ts, ForallList]

end

mutual

theorem tag_ofTag : (t : Tag) → t.Forall Laid → (WireTag.ofTag t).tag = t.recoded
  | ⟨name, value, children⟩, ⟨⟨hname, _⟩, hkids⟩ => by
    have hsplit := nameWire_shiftRight hname children.isEmpty
    simp only [WireTag.ofTag, WireTag.tag, recoded, hsplit, tags_ofTags children hkids]

theorem tags_ofTags : (ts : List Tag) → ForallList Laid ts →
    WireTag.tags (WireTag.ofTags ts) = recodedList ts
  | [], _ => rfl
  | t :: ts, ⟨ht, hts⟩ => by
    simp only [WireTag.ofTags, WireTag.tags, recodedList, tag_ofTag t ht, tags_ofTags ts hts]

end

end Tag

theorem Packet.payload_eq (p : Packet) :
    p.payload = p.opcode ::
      (BigEndian.toBytes 2 (UInt16.ofNat p.tags.length).toNat ++ tagsBytes p.tags) := by
  rw [Packet.payload, writeTags_eq, appendBE]
  rfl

theorem Packet.encode_drop (p : Packet) : p.encode.drop headerSize = p.payload := by
  simp only [Packet.encode, appendBE, List.nil_append]
  rw [List.drop_left' (by simp)]

/-- A packet that is laid out faithfully comes back with its values encoded and decoded. -/
theorem Packet.decodePayload_recoded (p : Packet) (hcount : p.tags.length ≤ 65535)
    (hnodes : Tag.ForallList Laid p.tags) (hsize : p.payload.length < 2 ^ 32) :
    Packet.decodePayload p.payload = .ok ⟨p.opcode, Tag.recodedList p.tags⟩ := by
  rw [Packet.payload_eq] at hsize
  simp only [List.length_cons, List.length_append, length_tagsBytes] at hsize
  have hwire : wireLens p.tags < 2 ^ 32 := by omega
  have hcast : (UInt16.ofNat p.tags.length).toNat = p.tags.length :=
    UInt16.toNat_ofNat_of_lt' (Nat.lt_succ_of_le hcount)
  have hbytes : (WirePacket.mk p.opcode (WireTag.ofTags p.tags)).bytes = p.payload := by
    rw [Packet.payload_eq, WirePacket.bytes, WireTag.bytesList_ofTags p.tags hnodes hwire,
      WireTag.length_ofTags, hcast]
  refine Packet.decodePayload_iff.mpr ⟨⟨p.opcode, WireTag.ofTags p.tags⟩, ⟨?_, ?_⟩, ?_, ?_⟩
  · rwa [← WireTag.length_ofTags] at hcount
  · exact WireTag.fits_ofTags p.tags hnodes hwire
  · rw [WirePacket.packet, Tag.tags_ofTags p.tags hnodes]
  · exact hbytes ▸ List.prefix_refl _

theorem Packet.decodePayload_payload [LawfulQtUtf8] (p : Packet) (h : p.Encodable) :
    Packet.decodePayload p.payload = .ok p := by
  have hlaid : Tag.ForallList Laid p.tags :=
    Tag.ForallList.imp (fun _ _ _ h => ⟨h.1, h.2.1⟩) _ h.nodes
  have hrecodes : Tag.ForallList Tag.Recodes p.tags :=
    Tag.ForallList.imp (fun _ v _ h => decodeValue_encodeValue v h.2.2) _ h.nodes
  rw [Packet.decodePayload_recoded p h.count hlaid h.size,
    (Tag.recodedList_eq_iff p.tags).mpr hrecodes]

/-- Decoding an encoded packet, its header removed, gives the packet back. -/
theorem Packet.decodePayload_encode [LawfulQtUtf8] (p : Packet) (h : p.Encodable) :
    Packet.decodePayload (p.encode.drop headerSize) = .ok p := by
  rw [Packet.encode_drop]
  exact Packet.decodePayload_payload p h

end

/-- A queue of one download, with its name and size, as the daemon reports it. -/
def sampleQueue : Packet :=
  ⟨Op.dloadQueue, [⟨TagName.partfile, .int 7,
    [.string TagName.partfileName (.lit "a.iso"), .integer TagName.partfileSizeFull 70000]⟩]⟩

theorem Packet.decodePayload_encode_sampleQueue :
    letI := sampleQt
    Packet.decodePayload (sampleQueue.encode.drop headerSize) = .ok sampleQueue :=
  letI := sampleQt
  haveI := sampleQt_lawfulUtf8
  Packet.decodePayload_encode sampleQueue
    ⟨by decide,
      ⟨⟨⟨by decide, by decide, trivial⟩,
        ⟨⟨by decide, by decide, (by decide : (QString.lit "a.iso").Portable)⟩, trivial⟩,
        ⟨⟨by decide, by decide, trivial⟩, trivial⟩, trivial⟩, trivial⟩,
      by decide⟩

end Amule.Ec
