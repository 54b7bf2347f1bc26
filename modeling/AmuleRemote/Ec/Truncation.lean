import AmuleRemote.Ec.CodecRoundTrip

/-!
# Truncated payloads

The decoder never looks behind the last tag it reads, and the bytes it needs are
a code without prefixes: no wire form of a packet starts another one that is
longer. So a payload is accepted whatever follows it, and cut anywhere before its
end it is an error.

What the encoder writes is needed whole as long as the packet's own count fits
its field and the lengths fit theirs. A packet that has 65536 tags is written with
a count of zero, and a tag of 2 ^ 32 bytes with a length of zero: such payloads
are accepted long before their end.
-/

namespace Amule.Ec

open WireTag

section

variable [Qt]

/-- No wire form of a packet continues another. -/
theorem WirePacket.bytes_eq_of_isPrefix {v w : WirePacket} (hv : v.Fits) (hw : w.Fits)
    (h : v.bytes <+: w.bytes) : v.bytes = w.bytes := by
  -- the decoder reads the longer one in one way only
  have hread := Packet.decode_iff.mpr ⟨v, hv, rfl, h, rfl⟩
  have hwhole := Packet.decode_iff.mpr ⟨w, hw, rfl, List.prefix_refl _, rfl⟩
  have hcur := (Prod.mk.inj (Except.ok.inj (hread.symm.trans hwhole))).2
  have hlen : (v.bytes.length : ℤ) = w.bytes.length := (Cursor.mk.inj hcur).2
  exact h.eq_of_length (Int.ofNat.inj hlen)

/-- A wire form cut short is an error. -/
theorem WirePacket.rejects_isPrefix {w : WirePacket} (hw : w.Fits) {b : QByteArray}
    (hcut : b <+: w.bytes) (hne : b ≠ w.bytes) :
    ∃ e, Packet.decodePayload b = .error e := by
  cases hdecode : Packet.decodePayload b with
  | error e => exact ⟨e, rfl⟩
  | ok p =>
    obtain ⟨v, hv, -, hbytes⟩ := Packet.decodePayload_iff.mp hdecode
    have heq := WirePacket.bytes_eq_of_isPrefix hv hw (hbytes.trans hcut)
    exact absurd (hcut.eq_of_length_le (heq ▸ hbytes.length_le)) hne

namespace WireTag

mutual

/-- A tag as its bytes are read back: the children that its count field leaves out are read
    as data. -/
def written : Tag → WireTag
  | ⟨name, value, children⟩ =>
    ⟨(name <<< 1) ||| (if children.isEmpty then 0 else 1), (encodeValue value).1,
      (writtenList children).take (children.length % 65536),
      bytesList ((writtenList children).drop (children.length % 65536)) ++ (encodeValue value).2⟩

def writtenList : List Tag → List WireTag
  | [] => []
  | t :: ts => written t :: writtenList ts

end

@[simp] theorem length_writtenList (ts : List Tag) : (writtenList ts).length = ts.length := by
  induction ts with
  | nil => rfl
  | cons t ts ih => simp [writtenList, ih]

omit [Qt] in
theorem bytesList_append (vs ws : List WireTag) :
    bytesList (vs ++ ws) = bytesList vs ++ bytesList ws := by
  induction vs with
  | nil => rfl
  | cons v vs ih => simp [bytesList, ih]

omit [Qt] in
theorem bytesList_take_drop (n : ℕ) (ws : List WireTag) :
    bytesList (ws.take n) ++ bytesList (ws.drop n) = bytesList ws := by
  rw [← bytesList_append, List.take_append_drop]

omit [Qt] in
theorem forallList_take {P : WireTag → Prop} (n : ℕ) {ws : List WireTag} (h : ForallList P ws) :
    ForallList P (ws.take n) := by
  induction ws generalizing n with
  | nil => simpa using h
  | cons w ws ih =>
    cases n with
    | zero => trivial
    | succ n => exact ⟨h.1, ih n h.2⟩

mutual

theorem bytes_written : (t : Tag) → wireLen t < 2 ^ 32 → (written t).bytes = tagBytes t
  | ⟨name, value, children⟩, hsize => by
    simp only [wireLen] at hsize
    have hchildren := bytesList_writtenList children (by rw [bodyLen] at hsize; omega)
    have hbody := bytesList_take_drop (children.length % 65536) (writtenList children)
    rw [hchildren] at hbody
    have hlen := toNat_tagLen_of_lt (Nat.lt_of_add_left_lt hsize)
    have hsum := congrArg List.length hbody
    rw [List.length_append] at hsum
    have hcount : ((writtenList children).take (children.length % 65536)).length =
        (UInt16.ofNat children.length).toNat := by
      rw [List.length_take, length_writtenList, UInt16.toNat_ofNat']
      omega
    simp only [written, bytes, tagBytes, hasChildren_nameWire, hlen, hcount, List.length_append,
      ← hsum, Nat.add_assoc]
    cases children with
    | nil => rfl
    | cons c cs =>
      simp only [List.isEmpty_cons, Bool.not_false, if_true, Bool.false_eq_true, if_false,
        List.append_assoc, ← hbody]

theorem bytesList_writtenList : (ts : List Tag) → wireLens ts < 2 ^ 32 →
    bytesList (writtenList ts) = tagsBytes ts
  | [], _ => rfl
  | t :: ts, hsize => by
    have hsplit : wireLens (t :: ts) = wireLen t + wireLens ts := rfl
    rw [writtenList, bytesList, tagsBytes, bytes_written t (by omega),
      bytesList_writtenList ts (by omega)]

end

mutual

theorem fits_written : (t : Tag) → wireLen t < 2 ^ 32 → (written t).Fits
  | ⟨name, value, children⟩, hsize => by
    simp only [wireLen, bodyLen] at hsize
    have hchildren := bytesList_writtenList children (by omega)
    have hbody := congrArg List.length
      (bytesList_take_drop (children.length % 65536) (writtenList children))
    rw [hchildren, List.length_append, length_tagsBytes] at hbody
    refine ⟨⟨fun hnot => ?_, ?_, ?_⟩, forallList_take _ (fits_writtenList children (by omega))⟩
    · rw [hasChildren_nameWire] at hnot
      cases children with
      | nil => rfl
      | cons c cs => exact absurd hnot (by simp)
    · rw [List.length_take]
      omega
    · change (bytesList ((writtenList children).take _)).length +
        List.length (_ ++ (encodeValue value).2) < 2 ^ 32
      rw [List.length_append]
      omega

theorem fits_writtenList : (ts : List Tag) → wireLens ts < 2 ^ 32 →
    ForallList FitsNode (writtenList ts)
  | [], _ => trivial
  | t :: ts, hsize => by
    have hsplit : wireLens (t :: ts) = wireLen t + wireLens ts := rfl
    exact ⟨fits_written t (by omega), fits_writtenList ts (by omega)⟩

end

end WireTag

namespace Packet

/-- What the encoder writes is a wire form and nothing else, if the packet's count and the lengths
    fit. -/
theorem exists_payload_eq (p : Packet) (hcount : p.tags.length ≤ 65535)
    (hsize : p.payload.length < 2 ^ 32) : ∃ w : WirePacket, w.Fits ∧ w.bytes = p.payload := by
  rw [payload_eq] at hsize
  simp only [List.length_cons, List.length_append, length_tagsBytes] at hsize
  have hwire : wireLens p.tags < 2 ^ 32 := by omega
  have hcast : (UInt16.ofNat p.tags.length).toNat = p.tags.length :=
    UInt16.toNat_ofNat_of_lt' (Nat.lt_succ_of_le hcount)
  refine ⟨⟨p.opcode, writtenList p.tags⟩, ⟨?_, fits_writtenList p.tags hwire⟩, ?_⟩
  · rwa [← length_writtenList] at hcount
  · rw [payload_eq, WirePacket.bytes, bytesList_writtenList p.tags hwire, length_writtenList, hcast]

/-- The bytes that the decoder consumes are accepted whatever follows and rejected when any of
    them is missing; for an encoded packet within the limits of the format these are all of its
    payload. -/
theorem truncation_rejected :
    (∀ (b : QByteArray) (p : Packet), decodePayload b = .ok p →
      ∃ k : ℕ, k ≤ b.length ∧ Packet.decode b = .ok (p, { buf := b, pos := k }) ∧
        (∀ b', b.take k <+: b' → decodePayload b' = .ok p) ∧
        ∀ b', b' <+: b.take k → b' ≠ b.take k → ∃ e, decodePayload b' = .error e) ∧
      ∀ p : Packet, p.tags.length ≤ 65535 → p.payload.length < 2 ^ 32 →
        ∀ n < p.payload.length, ∃ e, decodePayload (p.payload.take n) = .error e := by
  refine ⟨fun b p h => ?_, fun p hcount hsize n hn => ?_⟩
  · obtain ⟨w, hfits, hpacket, hbytes⟩ := decodePayload_iff.mp h
    have htake : b.take w.bytes.length = w.bytes := (List.prefix_iff_eq_take.mp hbytes).symm
    have hread := decode_iff.mpr ⟨w, hfits, hpacket, hbytes, rfl⟩
    refine ⟨w.bytes.length, hbytes.length_le, hread, ?_, ?_⟩
    · intro b' hb'
      rw [htake] at hb'
      exact decodePayload_iff.mpr ⟨w, hfits, hpacket, hb'⟩
    · rw [htake]
      intro b' hb' hne
      exact WirePacket.rejects_isPrefix hfits hb' hne
  · obtain ⟨w, hfits, hbytes⟩ := p.exists_payload_eq hcount hsize
    rw [← hbytes] at hn ⊢
    refine WirePacket.rejects_isPrefix hfits (List.take_prefix n _) fun heq => ?_
    have hlen := congrArg List.length heq
    rw [List.length_take] at hlen
    omega

theorem decodePayload_front {p q : Packet} {front rest : QByteArray} (h : p.payload = front ++ rest)
    (hfront : decodePayload front = .ok q) :
    decodePayload (p.payload.take front.length) = .ok q := by
  rw [h, List.take_left, hfront]

theorem front_lt_payload {p : Packet} {front rest : QByteArray} (h : p.payload = front ++ rest)
    (hrest : 0 < rest.length) : front.length < p.payload.length := by
  rw [h, List.length_append]
  omega

theorem payload_of_count {p : Packet} (h : p.tags.length = 65536) :
    p.payload = [p.opcode, 0, 0] ++ tagsBytes p.tags := by
  rw [payload_eq, h]
  rfl

theorem payload_of_size {data : QByteArray} (h : data.length = 2 ^ 32) (op : UInt8) :
    Packet.payload ⟨op, [⟨0, .bytes data, []⟩]⟩ =
      [op, 0, 1, 0, 0, TagType.custom, 0, 0, 0, 0] ++ data := by
  have hname : BigEndian.toBytes 2 ((0 : UInt16) <<< 1 ||| 0).toNat = [0, 0] := by decide
  have hlen : BigEndian.toBytes 4 0 = [0, 0, 0, 0] := by decide
  have hcount : BigEndian.toBytes 2 (UInt16.ofNat 1).toNat = [0, 1] := by decide
  rw [payload_eq]
  simp only [tagsBytes, tagBytes, toNat_tagLen, bodyLen, wireLens, encodeValue, h, List.append_nil,
    Nat.add_zero, Nat.mod_self, List.isEmpty_nil, if_true, List.length_singleton, hname, hlen,
    hcount]
  rfl

end Packet

end

theorem Packet.truncation_rejected_sampleQueue :
    letI := sampleQt
    (∃ k : ℕ, Packet.decode [Op.noop, 0, 0, 7] =
      .ok (⟨Op.noop, []⟩, { buf := [Op.noop, 0, 0, 7], pos := k })) ∧
      ∃ e, decodePayload (sampleQueue.payload.take 20) = .error e := by
  let _ : Qt := sampleQt
  obtain ⟨hread, hcut⟩ := truncation_rejected
  obtain ⟨k, -, hdecode, -⟩ := hread [Op.noop, 0, 0, 7] ⟨Op.noop, []⟩ rfl
  exact ⟨⟨k, hdecode⟩, hcut sampleQueue (by decide) (by decide +kernel) 20 (by decide +kernel)⟩

/-- One tag more than the count field can say. -/
def overCounted : Packet := ⟨Op.noop, List.replicate 65536 (Tag.empty 0)⟩

/-- One byte more than the length field can say. -/
def overLong : Packet := ⟨Op.noop, [⟨0, .bytes (List.replicate (2 ^ 32) 0), []⟩]⟩

/-- Three bytes of the first packet are accepted as one without tags, and ten bytes of the second
    as one whose tag is empty. -/
theorem Packet.truncation_accepted :
    letI := sampleQt
    (3 < overCounted.payload.length ∧
      decodePayload (overCounted.payload.take 3) = .ok ⟨Op.noop, []⟩) ∧
      10 < overLong.payload.length ∧
        decodePayload (overLong.payload.take 10) = .ok ⟨Op.noop, [Tag.empty 0]⟩ := by
  let _ : Qt := sampleQt
  have hcounted := payload_of_count (p := overCounted) List.length_replicate
  have hlong : overLong.payload = _ := payload_of_size List.length_replicate Op.noop
  have hpos : 0 < (tagsBytes overCounted.tags).length := by
    rw [length_tagsBytes, overCounted, List.replicate_succ, wireLens]
    omega
  have hzeros : 0 < (List.replicate (2 ^ 32) (0 : UInt8)).length := by
    rw [List.length_replicate]
    exact Nat.two_pow_pos 32
  have hempty : decodePayload [Op.noop, 0, 1, 0, 0, TagType.custom, 0, 0, 0, 0] =
      .ok ⟨Op.noop, [Tag.empty 0]⟩ := rfl
  have hnone : decodePayload [Op.noop, 0, 0] = .ok ⟨Op.noop, []⟩ := rfl
  have hthree := decodePayload_front hcounted hnone
  have hten := decodePayload_front hlong hempty
  exact ⟨⟨front_lt_payload hcounted hpos, hthree⟩, front_lt_payload hlong hzeros, hten⟩

end Amule.Ec
