import AmuleRemote.Ec.CodecRoundTrip

/-!
# Length fields

The encoder computes the length of a tag by one recursion and writes its bytes by
another. The length leaves out the tag's own header and subtag count, which the
parent is charged with. Both recursions agree at every tag of a tree, as long as
the tree is shorter than the 32 bits of the field.

So does the header of a frame, which counts the payload. It is another field of 32
bits, and several tags that fit theirs may be too much for it.
-/

namespace Amule.Ec

section

variable [Qt]

/-- The buffer when the children of a tag are to be written: its header, and its subtag count
    where there are any. -/
def headed (out : QByteArray) (t : Tag) : QByteArray :=
  let nameWire : UInt16 := (t.name <<< 1) ||| (if !t.children.isEmpty then 1 else 0)
  let out := appendBE out 2 nameWire.toNat ++ [(encodeValue t.value).1]
  let out := appendBE out 4 (tagLen t).toNat
  if !t.children.isEmpty then appendBE out 2 (UInt16.ofNat t.children.length).toNat else out

/-- `writeTag` is called with `out'` and `s` while it writes `t` onto `out`. -/
inductive Writes : QByteArray → Tag → QByteArray → Tag → Prop
  | self (out : QByteArray) (t : Tag) : Writes out t out t
  | child {out out' : QByteArray} {t c s : Tag} {before after : List Tag}
      (hchildren : t.children = before ++ c :: after)
      (h : Writes (writeTags (headed out t) before) c out' s) : Writes out t out' s

/-- The tag `t` on `out` takes what its length says, and its length field says what follows. -/
structure Measured (out : QByteArray) (t : Tag) : Prop where
  appended : (writeTag out t).length =
    out.length + (7 + (if t.children.isEmpty then 0 else 2) + (tagLen t).toNat)
  field : BigEndian.ofBytes (((writeTag out t).drop (out.length + 3)).take 4) =
    ((writeTag out t).drop (out.length + 7 + if t.children.isEmpty then 0 else 2)).length

theorem writeTags_append (out : QByteArray) (ts us : List Tag) :
    writeTags out (ts ++ us) = writeTags (writeTags out ts) us := by
  induction ts generalizing out with
  | nil => rfl
  | cons t ts ih => exact ih (writeTag out t)

theorem writeTag_headed (out : QByteArray) (t : Tag) :
    writeTag out t = writeTags (headed out t) t.children ++ (encodeValue t.value).2 := by
  obtain ⟨name, value, children⟩ := t
  cases children with
  | nil => rfl
  | cons c cs => rfl

theorem length_writeTag (out : QByteArray) (t : Tag) :
    (writeTag out t).length = out.length + wireLen t := by
  rw [writeTag_eq, List.length_append, length_tagBytes]

/-- What a call has written is still there when the calls above it are done. -/
theorem Writes.isPrefix {out out' : QByteArray} {t s : Tag} (h : Writes out t out' s) :
    writeTag out' s <+: writeTag out t := by
  induction h with
  | self out t => exact List.prefix_refl _
  | @child out out' t c s before after hchildren _ ih =>
    refine ih.trans ?_
    rw [writeTag_headed out t, hchildren, writeTags_append, writeTags, writeTags_eq _ after,
      List.append_assoc]
    exact List.prefix_append _ _

theorem Writes.length_le {out out' : QByteArray} {t s : Tag} (h : Writes out t out' s) :
    out.length ≤ out'.length := by
  induction h with
  | self out t => exact le_rfl
  | @child out out' t c s before after _ _ ih =>
    refine le_trans ?_ ih
    rw [writeTags_eq, List.length_append, headed]
    split
    · simp only [appendBE, List.length_append]
      omega
    · simp only [appendBE, List.length_append]
      omega

/-- A tag takes no more room than the tree it is part of. -/
theorem Writes.wireLen_le {out out' : QByteArray} {t s : Tag} (h : Writes out t out' s) :
    wireLen s ≤ wireLen t := by
  have hlast := h.isPrefix.length_le
  have hfirst := h.length_le
  rw [length_writeTag, length_writeTag] at hlast
  omega

theorem measured {t : Tag} (hsize : wireLen t < 2 ^ 32) (out : QByteArray) : Measured out t := by
  have hlen : (tagLen t).toNat = bodyLen t := by
    rw [wireLen] at hsize
    rw [toNat_tagLen, Nat.mod_eq_of_lt (by omega)]
  have happended : (writeTag out t).length =
      out.length + (7 + (if t.children.isEmpty then 0 else 2) + (tagLen t).toNat) := by
    rw [length_writeTag, wireLen, hlen]
  refine ⟨happended, ?_⟩
  have hfield : ((writeTag out t).drop (out.length + 3)).take 4 =
      BigEndian.toBytes 4 (tagLen t).toNat := by
    obtain ⟨name, value, children⟩ := t
    rw [writeTag_eq, List.drop_append, List.drop_of_length_le (Nat.le_add_right _ _),
      Nat.add_sub_cancel_left, List.nil_append, tagBytes]
    rfl
  have hlt : (tagLen t).toNat < 256 ^ 4 := (tagLen t).toNat_lt
  rw [hfield, BigEndian.ofBytes_toBytes_of_lt hlt, List.length_drop, happended]
  omega

namespace Packet

/-- The header of a frame counts the payload in 32 bits. -/
theorem header_field (p : Packet) :
    BigEndian.ofBytes ((p.encode.drop 4).take 4) = p.payload.length % 2 ^ 32 := by
  have hcount : (p.encode.drop 4).take 4 =
      BigEndian.toBytes 4 (UInt32.ofNat p.payload.length).toNat := rfl
  have hlt : (UInt32.ofNat p.payload.length).toNat < 256 ^ 4 := UInt32.toNat_lt _
  rw [hcount, BigEndian.ofBytes_toBytes_of_lt hlt, UInt32.toNat_ofNat']

/-- Every tag written for a tree of less than 2 ^ 32 bytes is as long as its length field says,
    and so is a payload of less than 2 ^ 32 bytes. -/
theorem length_fields :
    (∀ (out : QByteArray) (t : Tag), (writeTag [] t).length < 2 ^ 32 →
      ∀ out' s, Writes out t out' s → Measured out' s ∧ writeTag out' s <+: writeTag out t) ∧
    ∀ p : Packet, p.payload.length < 2 ^ 32 → p.encode.drop headerSize = p.payload ∧
      BigEndian.ofBytes ((p.encode.drop 4).take 4) = p.payload.length := by
  refine ⟨fun out t hsize out' s hwrites => ⟨measured ?_ out', hwrites.isPrefix⟩, fun p hp => ?_⟩
  · rw [length_writeTag, List.length_nil, Nat.zero_add] at hsize
    exact lt_of_le_of_lt hwrites.wireLen_le hsize
  · rw [header_field, Nat.mod_eq_of_lt hp]
    exact ⟨encode_drop p, rfl⟩

end Packet

theorem wireLen_bytes (name : UInt16) (data : QByteArray) :
    wireLen ⟨name, .bytes data, []⟩ = 7 + data.length := by
  simp [wireLen, bodyLen, wireLens, encodeValue]

/-- The payload of a packet with two tags of raw bytes. -/
theorem length_payload_bytes (opcode : UInt8) (name : UInt16) (data : QByteArray) :
    (Packet.mk opcode [⟨name, .bytes data, []⟩, ⟨name, .bytes data, []⟩]).payload.length =
      17 + 2 * data.length := by
  have hlens (t u : Tag) : wireLens [t, u] = wireLen t + (wireLen u + 0) := rfl
  rw [Packet.payload_eq, List.length_cons, List.length_append, BigEndian.length_toBytes,
    length_tagsBytes, hlens, wireLen_bytes]
  omega

omit [Qt] in
/-- A tag with 2 ^ 31 bytes of data, which is within its own bounds. -/
def halfTag : Tag := ⟨0, .bytes (List.replicate (2 ^ 31) 0), []⟩

/-- Two of them, of 2 ^ 32 + 17 bytes with the packet's own header. -/
def twoHalves : Packet := ⟨Op.noop, [halfTag, halfTag]⟩

end

theorem Packet.length_fields_sampleQueue :
    letI := sampleQt
    (∀ out' s, Writes [] (sampleQueue.tags.headD (Tag.empty 0)) out' s → Measured out' s) ∧
      BigEndian.ofBytes ((sampleQueue.encode.drop 4).take 4) = sampleQueue.payload.length := by
  let _ : Qt := sampleQt
  obtain ⟨htags, hpackets⟩ := length_fields
  exact ⟨fun out' s h => (htags [] _ (by decide +kernel) out' s h).1,
    (hpackets sampleQueue (by decide +kernel)).2⟩

/-- Each of the two tags is shorter than 2 ^ 32 bytes, and the packet's header says 17. -/
theorem Packet.length_field_twoHalves :
    letI := sampleQt
    (∀ t ∈ twoHalves.tags, t.children = [] ∧ (writeTag [] t).length < 2 ^ 32) ∧
      BigEndian.ofBytes ((twoHalves.encode.drop 4).take 4) ≠ twoHalves.payload.length := by
  let _ : Qt := sampleQt
  have hdata : (List.replicate (2 ^ 31) (0 : UInt8)).length = 2 ^ 31 := List.length_replicate
  have hpayload : twoHalves.payload.length = 17 + 2 * 2 ^ 31 := by
    have h := length_payload_bytes Op.noop 0 (List.replicate (2 ^ 31) 0)
    rw [hdata] at h
    exact h
  constructor
  · intro t ht
    have hhalf : t = halfTag := by simpa [twoHalves] using ht
    have hlen := wireLen_bytes 0 (List.replicate (2 ^ 31) 0)
    rw [hdata] at hlen
    subst hhalf
    refine ⟨rfl, ?_⟩
    rw [length_writeTag, halfTag, hlen]
    decide
  · rw [header_field, hpayload]
    decide

end Amule.Ec
