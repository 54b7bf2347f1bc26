import AmuleRemote.Ec.Wire

/-!
# Children stay inside their parents

The decoder reads the children of a tag from the packet's own cursor, and only
afterwards compares what they used with the tag's declared length. The strict
decoder here cuts out the declared length first and lets the children read
inside that slice. On malformed input the two look at different bytes, but they
accept the same payloads and return the same packets.
-/

namespace Amule.Ec

open WireTag

/-- The first `n` bytes, and what follows them. -/
def cut (n : ℕ) (b : QByteArray) : Option (QByteArray × QByteArray) :=
  if b.length < n then none else some (b.take n, b.drop n)

/-- A big-endian number of `w` bytes. -/
def cutNumber (w : ℕ) (b : QByteArray) : Option (ℕ × QByteArray) := do
  let (s, b) ← cut w b
  some (BigEndian.ofBytes s, b)

/-- The subtag count, which is zero where the flag announces none. -/
def cutCount (nameWire : UInt16) (b : QByteArray) : Option (ℕ × QByteArray) :=
  if hasChildren nameWire then cutNumber 2 b else some (0, b)

def strictMany (read : QByteArray → Option (Tag × QByteArray)) :
    (count : ℕ) → QByteArray → Option (List Tag × QByteArray)
  | 0, b => some ([], b)
  | count + 1, b => do
    let (t, b) ← read b
    let (ts, b) ← strictMany read count b
    some (t :: ts, b)

section

variable [Qt]

/-- The tag at the front of `b`. What its children leave of its slice is its data. The bound
    is on the bytes of `b`, of which a tag takes seven at least. -/
def strictTag : (bound : ℕ) → QByteArray → Option (Tag × QByteArray)
  | 0, _ => none
  | bound + 1, b => do
    let (nameWire, b) ← cutNumber 2 b
    let (type, b) ← cutNumber 1 b
    let (len, b) ← cutNumber 4 b
    let (count, b) ← cutCount (.ofNat nameWire) b
    let (slice, rest) ← cut len b
    let (children, data) ← strictMany (strictTag bound) count slice
    some (⟨UInt16.ofNat nameWire >>> 1, decodeValue (.ofNat type) data, children⟩, rest)

def strictDecode (payload : QByteArray) : Option Packet := do
  let (opcode, b) ← cutNumber 1 payload
  let (count, b) ← cutNumber 2 b
  let (tags, _) ← strictMany (strictTag b.length) count b
  some ⟨.ofNat opcode, tags⟩

end

theorem cut_eq_some_iff {n : ℕ} {b s rest : QByteArray} :
    cut n b = some (s, rest) ↔ b = s ++ rest ∧ s.length = n := by
  constructor
  · intro h
    unfold cut at h
    split at h
    · exact nomatch h
    next hle =>
      obtain ⟨rfl, rfl⟩ := Prod.mk.inj (Option.some.inj h)
      exact ⟨(List.take_append_drop n b).symm, List.length_take_of_le (Nat.le_of_not_lt hle)⟩
  · rintro ⟨rfl, rfl⟩
    have hnot : ¬(s ++ rest).length < s.length := by simp
    rw [cut, if_neg hnot, List.take_left, List.drop_left]

theorem cutNumber_eq_some_iff {w v : ℕ} {b rest : QByteArray} :
    cutNumber w b = some (v, rest) ↔ v < 256 ^ w ∧ b = BigEndian.toBytes w v ++ rest := by
  unfold cutNumber
  simp only [Option.bind_eq_bind, Option.bind_eq_some_iff, Prod.exists, cut_eq_some_iff]
  constructor
  · rintro ⟨s, rest, ⟨rfl, rfl⟩, h⟩
    obtain ⟨rfl, rfl⟩ := Prod.mk.inj (Option.some.inj h)
    exact ⟨BigEndian.ofBytes_lt s, by rw [BigEndian.toBytes_ofBytes]⟩
  · rintro ⟨hlt, rfl⟩
    refine ⟨_, rest, ⟨rfl, BigEndian.length_toBytes w v⟩, ?_⟩
    rw [BigEndian.ofBytes_toBytes_of_lt hlt]

theorem cutCount_eq_some_iff {nameWire : UInt16} {count : ℕ} {b rest : QByteArray} :
    cutCount nameWire b = some (count, rest) ↔
      (hasChildren nameWire = false → count = 0) ∧ count ≤ 65535 ∧
        b = (if hasChildren nameWire then BigEndian.toBytes 2 count else []) ++ rest := by
  unfold cutCount
  by_cases hflag : hasChildren nameWire = true
  · rw [if_pos hflag, if_pos hflag, cutNumber_eq_some_iff]
    constructor
    · rintro ⟨hlt, rfl⟩
      exact ⟨fun h => absurd hflag (by simp [h]), by omega, rfl⟩
    · rintro ⟨-, hle, rfl⟩
      exact ⟨by omega, rfl⟩
  · rw [if_neg hflag, if_neg hflag]
    constructor
    · intro h
      obtain ⟨rfl, rfl⟩ := Prod.mk.inj (Option.some.inj h)
      exact ⟨fun _ => rfl, Nat.zero_le _, rfl⟩
    · rintro ⟨hzero, -, rfl⟩
      rw [hzero (eq_false_of_ne_true hflag)]

section

variable [Qt]

omit [Qt] in
/-- A wire form is a header, the count and a slice of the declared length. -/
theorem WireTag.bytes_eq_slice (w : WireTag) (h : w.FitsNode) : w.bytes =
    BigEndian.toBytes 2 w.nameWire.toNat ++ (BigEndian.toBytes 1 w.type.toNat ++
      (BigEndian.toBytes 4 (bytesList w.children ++ w.data).length ++
        ((if hasChildren w.nameWire then BigEndian.toBytes 2 w.children.length else []) ++
          (bytesList w.children ++ w.data)))) := by
  obtain ⟨nameWire, type, children, data⟩ := w
  have htype : BigEndian.toBytes 1 type.toNat = [type] := by simp [BigEndian.toBytes]
  by_cases hflag : hasChildren nameWire = true
  · simp only [bytes, hflag, if_true, htype, List.length_append, List.append_assoc]
  · have hnone : children = [] := h.flagged (eq_false_of_ne_true hflag)
    subst hnone
    simp [bytes, hflag, htype, bytesList]

/-- Of strings of up to `bound` bytes, `read` reads those that start with a wire form. -/
def ReadsWire (read : QByteArray → Option (Tag × QByteArray)) (bound : ℕ) : Prop :=
  ∀ b t rest, b.length ≤ bound → (read b = some (t, rest) ↔
    ∃ w : WireTag, w.Fits ∧ w.tag = t ∧ b = w.bytes ++ rest)

/-- Such reads, one after the other, read the wire forms in a row. -/
theorem strictMany_eq_some_iff {read : QByteArray → Option (Tag × QByteArray)} {bound : ℕ}
    (hread : ReadsWire read bound) {count : ℕ} {b rest : QByteArray} {ts : List Tag}
    (hb : b.length ≤ bound) :
    strictMany read count b = some (ts, rest) ↔ ∃ ws : List WireTag, ws.length = count ∧
      ForallList FitsNode ws ∧ tags ws = ts ∧ b = bytesList ws ++ rest := by
  induction count generalizing b ts with
  | zero =>
    constructor
    · intro h
      obtain ⟨rfl, rfl⟩ := Prod.mk.inj (Option.some.inj h)
      exact ⟨[], rfl, trivial, rfl, rfl⟩
    · rintro ⟨ws, hlen, -, rfl, rfl⟩
      rw [List.eq_nil_of_length_eq_zero hlen]
      rfl
  | succ count ih =>
    simp only [strictMany, Option.bind_eq_bind, Option.bind_eq_some_iff, Prod.exists]
    constructor
    · rintro ⟨t, b₁, hone, ts, rest, hothers, h⟩
      obtain ⟨rfl, rfl⟩ := Prod.mk.inj (Option.some.inj h)
      obtain ⟨w, hw, rfl, rfl⟩ := (hread b t b₁ hb).mp hone
      rw [List.length_append] at hb
      obtain ⟨ws, rfl, hws, rfl, rfl⟩ := (ih (by omega)).mp hothers
      exact ⟨w :: ws, rfl, ⟨hw, hws⟩, rfl, (List.append_assoc _ _ _).symm⟩
    · rintro ⟨ws, hlen, hws, rfl, rfl⟩
      obtain ⟨w, ws, rfl⟩ := List.exists_cons_of_length_eq_add_one hlen
      rw [bytesList, List.append_assoc] at hb ⊢
      refine ⟨w.tag, _, (hread _ _ _ hb).mpr ⟨w, hws.1, rfl, rfl⟩, tags ws, rest, ?_, rfl⟩
      rw [List.length_append] at hb
      exact (ih (by omega)).mpr ⟨ws, Nat.succ.inj hlen, hws.2, rfl, rfl⟩

section step

variable {bound : ℕ} (ih : ReadsWire (strictTag bound) bound)
include ih

theorem strictTag_sound {b rest : QByteArray} {t : Tag} (hb : b.length ≤ bound + 1)
    (h : strictTag (bound + 1) b = some (t, rest)) :
    ∃ w : WireTag, w.Fits ∧ w.tag = t ∧ b = w.bytes ++ rest := by
  simp only [strictTag, Option.bind_eq_bind, Option.bind_eq_some_iff, Prod.exists,
    cutNumber_eq_some_iff, cutCount_eq_some_iff, cut_eq_some_iff] at h
  obtain ⟨n, b₁, ⟨hn, rfl⟩, m, b₂, ⟨hm, rfl⟩, len, b₃, ⟨hlen, rfl⟩, count, b₄,
    ⟨hflagged, hcount, hb₃⟩, slice, rest, ⟨rfl, rfl⟩, children, data, hmany, h⟩ := h
  obtain ⟨rfl, rfl⟩ := Prod.mk.inj (Option.some.inj h)
  obtain ⟨nameWire, rfl⟩ : ∃ v : UInt16, n = v.toNat :=
    ⟨.ofNat n, (UInt16.toNat_ofNat_of_lt' hn).symm⟩
  obtain ⟨type, rfl⟩ : ∃ v : UInt8, m = v.toNat :=
    ⟨.ofNat m, (UInt8.toNat_ofNat_of_lt' hm).symm⟩
  rw [UInt16.ofNat_toNat] at hflagged hb₃ ⊢
  rw [UInt8.ofNat_toNat]
  rw [hb₃] at hb ⊢
  -- the children are read from the slice, which is shorter
  simp only [List.length_append, BigEndian.length_toBytes] at hb
  obtain ⟨ws, rfl, hws, rfl, rfl⟩ := (strictMany_eq_some_iff ih (by omega)).mp hmany
  rw [List.length_append] at hlen
  have hnode : FitsNode ⟨nameWire, type, ws, data⟩ :=
    ⟨fun h => List.eq_nil_of_length_eq_zero (hflagged h), hcount, hlen⟩
  refine ⟨⟨nameWire, type, ws, data⟩, ⟨hnode, hws⟩, rfl, ?_⟩
  simp only [bytes_eq_slice _ hnode, List.append_assoc]

theorem strictTag_bytes {w : WireTag} (hw : w.Fits) {rest : QByteArray}
    (hb : (w.bytes ++ rest).length ≤ bound + 1) :
    strictTag (bound + 1) (w.bytes ++ rest) = some (w.tag, rest) := by
  obtain ⟨nameWire, type, ws, data⟩ := w
  obtain ⟨hnode, hws⟩ := hw
  have hzero : hasChildren nameWire = false → ws.length = 0 :=
    fun h => List.length_eq_zero_iff.mpr (hnode.flagged h)
  have hsize : (bytesList ws ++ data).length < 256 ^ 4 := by
    rw [List.length_append]
    exact hnode.size
  rw [List.length_append, bytes_eq_slice _ hnode] at hb
  rw [bytes_eq_slice _ hnode]
  simp only [strictTag, Option.bind_eq_bind, Option.bind_eq_some_iff, Prod.exists,
    cutNumber_eq_some_iff, cut_eq_some_iff, List.append_assoc]
  have hcount : cutCount (.ofNat nameWire.toNat)
      ((if hasChildren nameWire then BigEndian.toBytes 2 ws.length else []) ++
        (bytesList ws ++ (data ++ rest))) =
      some (ws.length, bytesList ws ++ (data ++ rest)) := by
    rw [UInt16.ofNat_toNat]
    exact cutCount_eq_some_iff.mpr ⟨hzero, hnode.count, rfl⟩
  have hmany : strictMany (strictTag bound) ws.length (bytesList ws ++ data) =
      some (tags ws, data) := by
    refine (strictMany_eq_some_iff ih ?_).mpr ⟨ws, rfl, hws, rfl, rfl⟩
    simp only [List.length_append, BigEndian.length_toBytes] at hb ⊢
    omega
  refine ⟨_, _, ⟨nameWire.toNat_lt, rfl⟩, _, _, ⟨type.toNat_lt, rfl⟩, _, _, ⟨hsize, rfl⟩,
    _, _, hcount, _, rest, ⟨(List.append_assoc _ _ _).symm, rfl⟩, _, _, hmany, ?_⟩
  rw [UInt16.ofNat_toNat, UInt8.ofNat_toNat]
  rfl

end step

/-- The strict decoder reads the wire forms as well. -/
theorem readsWire_strictTag (bound : ℕ) : ReadsWire (strictTag bound) bound := by
  induction bound with
  | zero =>
    intro b t rest hb
    constructor
    · exact fun h => nomatch h
    · rintro ⟨w, -, -, rfl⟩
      rw [List.length_append, length_bytes] at hb
      omega
  | succ bound ih =>
    intro b t rest hb
    constructor
    · exact strictTag_sound ih hb
    · rintro ⟨w, hw, rfl, rfl⟩
      exact strictTag_bytes ih hw hb

/-- So the strict decoder accepts the wire forms of packets and what follows. -/
theorem strictDecode_eq_some_iff {payload : QByteArray} {p : Packet} :
    strictDecode payload = some p ↔
      ∃ w : WirePacket, w.Fits ∧ w.packet = p ∧ w.bytes <+: payload := by
  simp only [strictDecode, Option.bind_eq_bind, Option.bind_eq_some_iff, Prod.exists,
    cutNumber_eq_some_iff]
  constructor
  · rintro ⟨n, b, ⟨hn, rfl⟩, count, b, ⟨hcount, rfl⟩, ts, rest, hmany, h⟩
    obtain ⟨ws, rfl, hws, rfl, rfl⟩ :=
      (strictMany_eq_some_iff (readsWire_strictTag _) le_rfl).mp hmany
    obtain rfl := Option.some.inj h
    refine ⟨⟨.ofNat n, ws⟩, ⟨by simp only; omega, hws⟩, rfl, rest, ?_⟩
    simp [WirePacket.bytes, BigEndian.toBytes]
  · rintro ⟨⟨opcode, ws⟩, ⟨hcount, hws⟩, rfl, rest, rfl⟩
    simp only at hcount
    have hmany := (strictMany_eq_some_iff (readsWire_strictTag _) le_rfl).mpr
      ⟨ws, rfl, hws, rfl, (rfl : bytesList ws ++ rest = bytesList ws ++ rest)⟩
    refine ⟨opcode.toNat, _, ⟨opcode.toNat_lt, ?_⟩, ws.length, _, ⟨by omega, rfl⟩, tags ws, rest,
      hmany, ?_⟩
    · simp [WirePacket.bytes, BigEndian.toBytes]
    · rw [UInt8.ofNat_toNat]
      rfl

/-- The decoder returns what the strict decoder returns, and fails where it fails: no child
    of an accepted packet has read a byte from outside its parent. -/
theorem Packet.decodePayload_eq_strictDecode (payload : QByteArray) :
    (Packet.decodePayload payload).toOption = strictDecode payload := by
  ext p
  rw [strictDecode_eq_some_iff, ← Packet.decodePayload_iff]
  cases Packet.decodePayload payload with
  | ok p' => simp [Except.toOption]
  | error e => simp [Except.toOption]

end

end Amule.Ec
