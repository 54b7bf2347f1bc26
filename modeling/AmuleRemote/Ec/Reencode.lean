import AmuleRemote.Ec.CodecRoundTrip
import Mathlib.Data.List.TakeWhile

/-!
# Encoding what was decoded

The decoder accepts much more than the encoder writes: integers in any width,
data that is too short or too long for its type, strings without a terminator,
a children flag with no children. A packet decoded from such bytes is encoded
and decoded to itself, with one exception. Data of a type that the decoder does
not know becomes opaque bytes, which are written as custom data; if there are
none, they are read back as an empty marker.
-/

namespace Amule.Ec

open WireTag

def knownTypes : List UInt8 := [TagType.custom, TagType.uint8, TagType.uint16, TagType.uint32,
  TagType.uint64, TagType.string, TagType.hash16, TagType.ipv4, TagType.double]

/-- There are data, or the type is known. -/
def Filled (w : WireTag) : Prop := w.data = [] → w.type ∈ knownTypes

section

variable [Qt]

/-- The value is no double, and Qt's codec gives a string back. -/
def Recodable (_name : UInt16) (value : TagValue) (_children : List Tag) : Prop :=
  (∀ d, value ≠ .double d) ∧ ∀ s, value = .string s → Qt.fromUtf8 (Qt.toUtf8 s) = s

theorem decodeValue_of_unknown {type : UInt8} (h : type ∉ knownTypes) (data : QByteArray) :
    decodeValue type data = .bytes data := by
  simp only [knownTypes, List.mem_cons, List.not_mem_nil, or_false, not_or] at h
  obtain ⟨h1, h2, h3, h4, h5, h6, h7, h8, h9⟩ := h
  simp only [decodeValue, if_neg h1, if_neg h2, if_neg h3, if_neg h4, if_neg h5, if_neg h6,
    if_neg h7, if_neg h8, if_neg h9]

/-- No known type decodes to opaque bytes without a byte, and one alone to a string. -/
theorem decodeValue_of_known {type : UInt8} (h : type ∈ knownTypes) (data : QByteArray) :
    decodeValue type data ≠ .bytes [] ∧
      ∀ s, decodeValue type data = .string s → type = TagType.string := by
  simp only [knownTypes, List.mem_cons, List.not_mem_nil, or_false] at h
  rcases h with rfl | rfl | rfl | rfl | rfl | rfl | rfl | rfl | rfl
  · -- custom data are opaque, and an empty marker if there are none
    cases data with
    | nil => exact ⟨TagValue.noConfusion, fun _ => TagValue.noConfusion⟩
    | cons b data => exact ⟨by simp [decodeValue_custom], by simp [decodeValue_custom]⟩
  all_goals
    first
    | exact ⟨TagValue.noConfusion, fun _ _ => rfl⟩
    | exact ⟨TagValue.noConfusion, fun _ => TagValue.noConfusion⟩

/-- Only unknown data without a byte is decoded to opaque bytes without a byte. -/
theorem decodeValue_eq_bytes_nil_iff {type : UInt8} {data : QByteArray} :
    decodeValue type data = .bytes [] ↔ data = [] ∧ type ∉ knownTypes := by
  by_cases hknown : type ∈ knownTypes
  · exact iff_of_false (decodeValue_of_known hknown data).1 fun h => h.2 hknown
  · rw [decodeValue_of_unknown hknown, TagValue.bytes.injEq]
    exact (and_iff_left hknown).symm

omit [Qt] in
theorem zero_notMem_beforeZero (data : QByteArray) : (0 : UInt8) ∉ beforeZero data := by
  intro hmem
  have hne := List.mem_takeWhile_imp hmem
  exact absurd hne (by decide)

/-- A decoded string has no U+0000, since it ends at the first zero byte. -/
theorem zero_notMem_of_decodeValue [LawfulQtFromUtf8] {type : UInt8} {data : QByteArray}
    {s : QString} (h : decodeValue type data = .string s) : (0 : UInt16) ∉ s := by
  by_cases htype : type = TagType.string
  · rw [htype, decodeValue_string] at h
    rw [← TagValue.string.inj h]
    exact LawfulQtFromUtf8.zero_notMem_fromUtf8 _ (zero_notMem_beforeZero data)
  by_cases hknown : type ∈ knownTypes
  · exact absurd ((decodeValue_of_known hknown data).2 s h) htype
  · rw [decodeValue_of_unknown hknown] at h
    exact nomatch h

/-- Of the values that Qt gives back, only opaque bytes without a byte are changed. -/
theorem recodes_iff [LawfulQtUtf8] {name : UInt16} {value : TagValue} {children : List Tag}
    (h : Recodable name value children) (hzero : ∀ s, value = .string s → (0 : UInt16) ∉ s) :
    Tag.Recodes name value children ↔ value ≠ .bytes [] := by
  unfold Tag.Recodes
  cases value with
  | bytes b =>
    rw [ne_eq, TagValue.bytes.injEq]
    cases b with
    | nil => simp [encodeValue]
    | cons b bs =>
      have hb : (b :: bs : QByteArray) ≠ [] := List.cons_ne_nil b bs
      exact iff_of_true (decodeValue_encodeValue _ hb) hb
  | string s =>
    have hs := LawfulQtUtf8.zero_notMem_toUtf8 s (hzero s rfl)
    refine iff_of_true ?_ TagValue.noConfusion
    simp only [encodeValue, decodeValue_string, beforeZero_append _ hs, h.2 s rfl]
  | double d => exact absurd rfl (h.1 d)
  | empty | int i | hash a | ipv4 a =>
    exact iff_of_true (decodeValue_encodeValue _ trivial) TagValue.noConfusion

/-- What the decoded node of a wire form satisfies. -/
def Decoded (P : UInt16 → TagValue → List Tag → Prop) (w : WireTag) : Prop :=
  P (w.nameWire >>> 1) (decodeValue w.type w.data) (tags w.children)

mutual

theorem forall_tag {P : UInt16 → TagValue → List Tag → Prop} :
    (w : WireTag) → (w.tag.Forall P ↔ w.Forall (Decoded P))
  | ⟨_, _, children, _⟩ => and_congr Iff.rfl (forallList_tags children)

theorem forallList_tags {P : UInt16 → TagValue → List Tag → Prop} :
    (ws : List WireTag) → (Tag.ForallList P (tags ws) ↔ ForallList (Decoded P) ws)
  | [] => Iff.rfl
  | w :: ws => and_congr (forall_tag w) (forallList_tags ws)

end

omit [Qt] in
theorem name_lt (nameWire : UInt16) : nameWire >>> 1 < 0x8000 := by
  have hlt := nameWire.toNat_lt
  have hpow : 2 ^ (1 % 16) = 2 := rfl
  rw [UInt16.lt_iff_toNat_lt, UInt16.toNat_shiftRight, Nat.shiftRight_eq_div_pow]
  simp only [UInt16.reduceToNat, hpow]
  omega

/-- The tags of a wire form fit the wire. -/
theorem laid_tags {ws : List WireTag} (h : ForallList FitsNode ws) :
    Tag.ForallList Laid (tags ws) := by
  refine (forallList_tags ws).mpr (ForallList.imp (fun w hw _ => ?_) ws h h)
  exact ⟨name_lt w.nameWire, (length_tags w.children).trans_le hw.count⟩

/-- Encoding an accepted packet and decoding it again gives the packet exactly if no node of
    the payload has data of an unknown type without a byte. -/
theorem Packet.decodePayload_reencode_iff [LawfulQtUtf8] [LawfulQtFromUtf8] {payload : QByteArray}
    {p : Packet} (h : Packet.decodePayload payload = .ok p)
    (hnodes : Tag.ForallList Recodable p.tags) (hsize : p.payload.length < 2 ^ 32) :
    Packet.decodePayload (p.encode.drop headerSize) = .ok p ↔
      ∀ w : WirePacket, w.Fits → w.bytes <+: payload → ForallList Filled w.tags := by
  -- every wire form of the payload is a wire form of this packet
  have hforms : ∀ w : WirePacket, w.Fits → w.bytes <+: payload →
      (Packet.decodePayload (p.encode.drop headerSize) = .ok p ↔ ForallList Filled w.tags) := by
    intro w hfits hw
    have hw' := Packet.decodePayload_iff.mpr ⟨w, hfits, rfl, hw⟩
    obtain rfl : w.packet = p := Except.ok.inj (hw'.symm.trans h)
    have hcount : w.packet.tags.length ≤ 65535 := (length_tags w.tags).trans_le hfits.count
    have hfilled : ForallList (Decoded Tag.Recodes) w.tags ↔ ForallList Filled w.tags := by
      have hnode : ∀ w : WireTag, Decoded Recodable w → (Decoded Tag.Recodes w ↔ Filled w) := by
        intro w hw
        refine (recodes_iff hw fun s hs => zero_notMem_of_decodeValue hs).trans ?_
        rw [ne_eq, decodeValue_eq_bytes_nil_iff, Filled, not_and, not_not]
      have hall := (forallList_tags w.tags).mp hnodes
      exact ⟨ForallList.imp (fun w hw => (hnode w hw).mp) _ hall,
        ForallList.imp (fun w hw => (hnode w hw).mpr) _ hall⟩
    rw [Packet.encode_drop, Packet.decodePayload_recoded _ hcount (laid_tags hfits.tags) hsize,
      ← hfilled, ← forallList_tags, ← Tag.recodedList_eq_iff]
    constructor
    · exact fun hback => congrArg Packet.tags (Except.ok.inj hback)
    · intro hback
      show Except.ok (Packet.mk w.opcode (Tag.recodedList (WireTag.tags w.tags))) = _
      rw [hback]
      rfl
  obtain ⟨w, hfits, -, hw⟩ := Packet.decodePayload_iff.mp h
  exact ⟨fun hback w hfits hw => (hforms w hfits hw).mp hback,
    fun hall => (hforms w hfits hw).mpr (hall w hfits hw)⟩

end

/-- A short number under a children flag without children, and a string that does not end. -/
def sampleSloppy : QByteArray := [
  Op.noop, 0, 2,
  0, 3, TagType.uint32, 0, 0, 0, 2, 0, 0, 1, 2,
  0, 4, TagType.string, 0, 0, 0, 1, 0x61]

/-- What is decoded from it. -/
abbrev sampleTidy : Packet := ⟨Op.noop, [⟨1, .int 0x01020000, []⟩, ⟨2, .string [0x61], []⟩]⟩

theorem Packet.decodePayload_reencode_sampleTidy :
    letI := sampleQt
    Packet.decodePayload (sampleTidy.encode.drop headerSize) = .ok sampleTidy ∧
      ∀ w : WirePacket, w.Fits → w.bytes <+: sampleSloppy → ForallList Filled w.tags :=
  letI := sampleQt
  haveI := sampleQt_lawfulUtf8
  haveI := sampleQt_lawfulFromUtf8
  have hback : Packet.decodePayload (sampleTidy.encode.drop headerSize) = .ok sampleTidy := by
    decide +kernel
  ⟨hback, (Packet.decodePayload_reencode_iff (p := sampleTidy) (by decide +kernel)
    ⟨⟨⟨nofun, nofun⟩, trivial⟩, ⟨⟨nofun, by rintro _ ⟨⟩; decide⟩, trivial⟩, trivial⟩
    (by decide +kernel)).mp hback⟩

/-- A tag of an unknown type without data. -/
def sampleHollow : QByteArray := [Op.noop, 0, 1, 0, 2, 0, 0, 0, 0, 0]

/-- The opaque bytes come back as an empty marker. -/
theorem Packet.reencode_sampleHollow :
    letI := sampleQt
    ∃ p : Packet, Packet.decodePayload sampleHollow = .ok p ∧
      Tag.ForallList Recodable p.tags ∧ p.payload.length < 2 ^ 32 ∧
        Packet.decodePayload (p.encode.drop headerSize) ≠ .ok p :=
  letI := sampleQt
  ⟨⟨Op.noop, [⟨1, .bytes [], []⟩]⟩, by decide +kernel, ⟨⟨⟨nofun, nofun⟩, trivial⟩, trivial⟩,
    by decide +kernel, by decide +kernel⟩

end Amule.Ec
