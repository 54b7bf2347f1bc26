import AmuleRemote.Ec.Client
import AmuleRemote.Ec.Frames
import AmuleRemote.Ec.Reencode

/-!
# Lists of 65535 tags and more

The login announces that the client takes large tag counts, so the daemon may
flag a reply and write a count of 65535 or more as 0xFFFF followed by the count
in four bytes. The client looks at no flag but the one for compression, and the
decoder reads the count field as it is: it takes 0xFFFF for the count and the
four bytes after it for the start of the first tag.

So no packet with such a list is ever decoded from its frame. With more than
65535 tags the decoded list is too short. With exactly 65535 the first decoded
tag takes at least 0xFF000000 bytes of data; if the packet has that very tag, the
data repeat every four bytes, and the second one would take as much again.
-/

namespace Amule.Ec

open WireTag

/-- The count field of the large layout. -/
def largeCount (n : ℕ) : QByteArray :=
  if n < 65535 then BigEndian.toBytes 2 n else [0xFF, 0xFF] ++ BigEndian.toBytes 4 n

section

variable [Qt]

mutual

/-- A tag as the daemon lays it out; as in the plain layout, the length leaves out the tag's
    own subtag count. -/
def largeTag : Tag → QByteArray
  | ⟨name, value, children⟩ =>
    BigEndian.toBytes 2 ((name <<< 1) ||| (if children.isEmpty then 0 else 1)).toNat ++
      ([(encodeValue value).1] ++
        (BigEndian.toBytes 4 ((largeTags children).length + (encodeValue value).2.length) ++
          ((if children.isEmpty then [] else largeCount children.length ++ largeTags children) ++
            (encodeValue value).2)))

def largeTags : List Tag → QByteArray
  | [] => []
  | t :: ts => largeTag t ++ largeTags ts

end

def Packet.largePayload (p : Packet) : QByteArray :=
  p.opcode :: (largeCount p.tags.length ++ largeTags p.tags)

/-- The frame of a reply in the large layout. -/
def Packet.largeFrame (p : Packet) (hsize : p.largePayload.length < 2 ^ 32) : Frame :=
  ⟨Flag.base ||| Flag.largeTagCount, p.largePayload, hsize⟩

end

/-- A node whose subtag count is written in two bytes. -/
def Small (_name : UInt16) (_value : TagValue) (children : List Tag) : Prop :=
  children.length < 65535

/-- One of the lists of the packet, at the top level or at any depth, has a large count. -/
def Packet.HasLarge (p : Packet) : Prop := 65535 ≤ p.tags.length ∨ ¬Tag.ForallList Small p.tags

theorem largeCount_of_lt {n : ℕ} (h : n < 65535) : largeCount n = BigEndian.toBytes 2 n := if_pos h

/-- Equally long fronts of a prefix and its list are equal. -/
theorem prefix_split {x y a b : QByteArray} (h : x ++ a <+: y ++ b)
    (hlen : x.length = y.length) : x = y ∧ a <+: b := by
  obtain ⟨t, ht⟩ := h
  rw [List.append_assoc] at ht
  obtain ⟨hfront, hback⟩ := List.append_inj ht hlen
  exact ⟨hfront, t, hback⟩

/-- A list that starts with four elements and then repeats itself repeats its first one. -/
theorem getElem?_of_repeats {data front : QByteArray} (hlen : front.length = 4)
    (h : data = front ++ data.take (data.length - 4)) (k : ℕ) (hk : 4 * k < data.length) :
    data[4 * k]? = front[0]? := by
  induction k with
  | zero =>
    rw [h]
    exact List.getElem?_append_left (by omega)
  | succ k ih =>
    calc data[4 * (k + 1)]?
      _ = (front ++ data.take (data.length - 4))[4 * (k + 1)]? := congrArg (·[4 * (k + 1)]?) h
      _ = (data.take (data.length - 4))[4 * (k + 1) - 4]? := by
        rw [List.getElem?_append_right (by omega), hlen]
      _ = data[4 * k]? := List.getElem?_take_of_lt (by omega)
      _ = front[0]? := ih (by omega)

/-- Data that are also found four bytes later repeat themselves. -/
theorem repeats_of_shift {data front a b : QByteArray} (hlen : front.length = 4)
    (hdata : 4 ≤ data.length) (h : data ++ a <+: front ++ (data ++ b)) :
    data = front ++ data.take (data.length - 4) ∧ a <+: data.drop (data.length - 4) ++ b := by
  have hsplit : front ++ (data ++ b) =
      (front ++ data.take (data.length - 4)) ++ (data.drop (data.length - 4) ++ b) := by
    rw [List.append_assoc, ← List.append_assoc (data.take _), List.take_append_drop]
  rw [hsplit] at h
  refine prefix_split h ?_
  rw [List.length_append, List.length_take]
  omega

/-- A tag whose length starts with 0xFF is at least that long. -/
theorem le_length_bytes {w : WireTag} (hw : FitsNode w) (h : w.bytes[3]? = some 0xFF) :
    0xFF000007 ≤ w.bytes.length := by
  obtain ⟨nameWire, type, children, data⟩ := w
  have hsize : (bytesList children).length + data.length < 2 ^ 32 := hw.size
  have hbody : 7 + ((bytesList children).length + data.length) ≤
      (WireTag.mk nameWire type children data).bytes.length := by
    rw [length_bytes]
    by_cases hflag : hasChildren nameWire = true
    · simp only [hflag, if_true]
      omega
    · have hnone : children = [] := hw.flagged (eq_false_of_ne_true hflag)
      simp [hnone, bytesList]
  -- the fourth byte is the highest one of the length
  have htop : UInt8.ofNat (((bytesList children).length + data.length) / 256 ^ 3) = 0xFF := by
    rw [bytes, List.getElem?_append_right (by rw [BigEndian.length_toBytes]; omega),
      BigEndian.length_toBytes] at h
    exact Option.some.inj h
  have hnat : (UInt8.ofNat (((bytesList children).length + data.length) / 256 ^ 3)).toNat = 255 :=
    congrArg UInt8.toNat htop
  rw [UInt8.toNat_ofNat_of_lt' (show _ < 256 by omega)] at hnat
  omega

section

variable [Qt]

theorem length_largeTag (name : UInt16) (value : TagValue) (children : List Tag) :
    (largeTag ⟨name, value, children⟩).length =
      7 + ((if children.isEmpty then 0 else (largeCount children.length).length) +
        (largeTags children).length + (encodeValue value).2.length) := by
  cases children with
  | nil =>
    simp only [largeTag, largeTags, List.isEmpty_nil, if_true, List.length_append,
      BigEndian.length_toBytes, List.length_cons, List.length_nil]
    omega
  | cons c cs =>
    simp only [largeTag, List.isEmpty_cons, Bool.false_eq_true, if_false, List.length_append,
      BigEndian.length_toBytes, List.length_cons, List.length_nil]
    omega

/-- A first tag read from the count is data of an unknown type, and the packet's own first
    tag has these data too. -/
theorem data_of_sentinel {w : WireTag} (hw : FitsNode w) {a b : QByteArray}
    (h : w.bytes ++ a <+: [0, 0, 0xFF, 0xFF] ++ (largeTag w.tag ++ b)) :
    w.data.length = 0xFF000001 ∧ (largeTag w.tag).length = 7 + w.data.length ∧
      w.data ++ a <+: [0xFF, 0, 0, 1] ++ (w.data ++ b) := by
  obtain ⟨nameWire, type, children, data⟩ := w
  have hzero : BigEndian.toBytes 2 0 = [0, 0] := by decide
  simp only [bytes, List.append_assoc] at h
  obtain ⟨hname, h⟩ := prefix_split (y := [0, 0]) h (by rw [BigEndian.length_toBytes]; rfl)
  obtain ⟨htype, h⟩ := prefix_split (y := [0xFF]) h rfl
  have hname : nameWire = 0 := by
    rw [← hzero] at hname
    exact UInt16.toNat_inj.mp (BigEndian.toBytes_inj nameWire.toNat_lt (by decide) hname)
  have htype : type = 0xFF := (List.cons.inj htype).1
  subst hname htype
  have hflag : hasChildren 0 = false := by decide
  have hnone : children = [] := hw.flagged hflag
  subst hnone
  have htag : (WireTag.mk 0 0xFF [] data).tag = ⟨0, .bytes data, []⟩ := by
    simp only [tag, decodeValue_of_unknown (by decide : (0xFF : UInt8) ∉ knownTypes), tags]
    rfl
  have hlarge : largeTag ⟨0, .bytes data, []⟩ =
      [0, 0, 1] ++ (BigEndian.toBytes 4 data.length ++ data) := by
    simp [largeTag, largeTags, encodeValue, hzero]
  rw [htag, hlarge] at h ⊢
  have h : BigEndian.toBytes 4 data.length ++ (data ++ a) <+:
      [0xFF, 0, 0, 1] ++ (BigEndian.toBytes 4 data.length ++ (data ++ b)) := by
    simpa [bytesList, hflag] using h
  obtain ⟨hlen, h⟩ := prefix_split h (BigEndian.length_toBytes 4 _)
  have hfirst : BigEndian.toBytes 4 0xFF000001 = [0xFF, 0, 0, 1] := by decide
  have hsize : data.length < 256 ^ 4 := by
    have hnode := hw.size
    rw [bytesList] at hnode
    exact (Nat.zero_add data.length) ▸ hnode
  refine ⟨?_, ?_, ?_⟩
  · rw [← hfirst] at hlen
    exact BigEndian.toBytes_inj hsize (by decide) hlen
  · simp only [List.length_append, BigEndian.length_toBytes, List.length_cons, List.length_nil]
    omega
  · rwa [hlen] at h

/-- The second tag would take as much again, which no frame can hold. -/
theorem sentinel_not_read {ws : List WireTag} (hfits : ForallList FitsNode ws)
    (hlen : ws.length = 65535) {rest : QByteArray}
    (h : bytesList ws <+: [0, 0, 0xFF, 0xFF] ++ (largeTags (tags ws) ++ rest))
    (hsize : (largeTags (tags ws) ++ rest).length < 2 ^ 32) : False := by
  obtain ⟨w, ws, rfl⟩ := List.exists_cons_of_length_eq_add_one hlen
  obtain ⟨w', ws, rfl⟩ := List.exists_cons_of_length_eq_add_one (Nat.succ.inj hlen)
  simp only [bytesList, tags, largeTags, List.append_assoc] at h hsize
  obtain ⟨hdata, hlarge, h⟩ := data_of_sentinel hfits.1.head h
  have hle := h.length_le
  simp only [List.length_append, List.length_cons, List.length_nil, hlarge] at hle hsize
  obtain ⟨hrepeats, h⟩ := repeats_of_shift rfl (by omega) h
  -- the last byte of the data is the first one again, and the highest byte of a length
  have hlast : w.data[4 * 1069547520]? = some 0xFF := getElem?_of_repeats rfl hrepeats _ (by omega)
  have hpos : 3 < w'.bytes.length := by
    rw [length_bytes]
    omega
  have htop : w'.bytes[3]? = some 0xFF := by
    obtain ⟨t, ht⟩ := h
    calc w'.bytes[3]?
      _ = (w'.bytes ++ bytesList ws ++ t)[3]? := by
        rw [List.append_assoc, List.getElem?_append_left hpos]
      _ = (w.data.drop (w.data.length - 4))[3]? := by
        rw [ht, List.getElem?_append_left]
        rw [List.length_drop]
        omega
      _ = some 0xFF := by
        rw [List.getElem?_drop, hdata]
        exact hlast
  have hlong := le_length_bytes hfits.2.1.head htop
  omega

/-- A count that is read as it is written is a small one, and the children follow it. -/
theorem small_of_count {ws : List WireTag} (hfits : ForallList FitsNode ws)
    (hcount : ws.length ≤ 65535) {a rest : QByteArray}
    (h : BigEndian.toBytes 2 ws.length ++ (bytesList ws ++ a) <+:
      largeCount ws.length ++ (largeTags (tags ws) ++ rest))
    (hsize : (largeTags (tags ws) ++ rest).length < 2 ^ 32) :
    ws.length < 65535 ∧ bytesList ws ++ a <+: largeTags (tags ws) ++ rest := by
  by_cases hsmall : ws.length < 65535
  · rw [largeCount_of_lt hsmall] at h
    exact ⟨hsmall, (List.prefix_append_right_inj _).mp h⟩
  · exfalso
    have hlen : ws.length = 65535 := by omega
    have hsentinel : BigEndian.toBytes 2 65535 = [0xFF, 0xFF] := by decide
    have hlarge : largeCount 65535 = [0xFF, 0xFF] ++ [0, 0, 0xFF, 0xFF] := by decide
    rw [hlen, hsentinel, hlarge, List.append_assoc] at h
    have hrest := (List.prefix_append_right_inj _).mp h
    exact sentinel_not_read hfits hlen ((List.prefix_append _ _).trans hrest) hsize

mutual

/-- A tag that is read back from its large layout has no large count, and nothing but its own
    bytes has been read. -/
theorem small_of_read : (w : WireTag) → w.Fits → ∀ rest : QByteArray,
    w.bytes <+: largeTag w.tag ++ rest → (largeTag w.tag ++ rest).length < 2 ^ 32 →
      w.tag.Forall Small ∧ w.bytes.length = (largeTag w.tag).length
  | ⟨nameWire, type, children, data⟩, ⟨hnode, hkids⟩, rest, h, hsize => by
    have hbound : (largeTags (tags children)).length +
        (encodeValue (decodeValue type data)).2.length + rest.length < 2 ^ 32 := by
      rw [List.length_append, tag, length_largeTag] at hsize
      omega
    rw [tag, length_largeTag, length_bytes]
    simp only [bytes, tag, largeTag, List.append_assoc] at h
    obtain ⟨hname, h⟩ := prefix_split h (by simp)
    obtain ⟨-, h⟩ := prefix_split h rfl
    obtain ⟨hlen, h⟩ := prefix_split h (by simp)
    have hlen : (bytesList children).length + data.length =
        (largeTags (tags children)).length + (encodeValue (decodeValue type data)).2.length :=
      BigEndian.toBytes_inj hnode.size (show _ < 2 ^ 32 by omega) hlen
    by_cases hnone : children = []
    · -- the flag is what the written name says
      subst hnone
      have hflag : hasChildren nameWire = false := by
        rw [UInt16.toNat_inj.mp (BigEndian.toBytes_inj nameWire.toNat_lt (UInt16.toNat_lt _) hname)]
        exact hasChildren_nameWire _ true
      refine ⟨⟨Nat.zero_lt_succ _, trivial⟩, ?_⟩
      simp only [hflag, tags, List.isEmpty_nil, Bool.false_eq_true, if_true, if_false]
      rw [bytesList, tags] at hlen
      simpa using hlen
    · have hflag : hasChildren nameWire = true := by
        by_contra hnot
        exact hnone (hnode.flagged (eq_false_of_ne_true hnot))
      have hsome : (tags children).isEmpty = false := by
        cases children with
        | nil => exact absurd rfl hnone
        | cons c cs => rfl
      simp only [hflag, hsome, Bool.false_eq_true, if_true, if_false, length_tags,
        List.append_assoc] at h
      obtain ⟨hsmall, h⟩ := small_of_count hkids hnode.count h (by
        simp only [List.length_append]
        omega)
      have hlist : Tag.ForallList Small (tags children) := by
        refine smallList_of_read children hkids _ ((List.prefix_append _ _).trans h) ?_
        simp only [List.length_append]
        omega
      refine ⟨⟨(length_tags children).trans_lt hsmall, hlist⟩, ?_⟩
      simp only [hflag, hsome, Bool.false_eq_true, if_true, if_false, length_tags,
        largeCount_of_lt hsmall, BigEndian.length_toBytes]
      omega

theorem smallList_of_read : (ws : List WireTag) → ForallList FitsNode ws → ∀ rest : QByteArray,
    bytesList ws <+: largeTags (tags ws) ++ rest → (largeTags (tags ws) ++ rest).length < 2 ^ 32 →
      Tag.ForallList Small (tags ws)
  | [], _, _, _, _ => trivial
  | w :: ws, ⟨hw, hws⟩, rest, h, hsize => by
    simp only [bytesList, tags, largeTags, List.append_assoc] at h hsize
    obtain ⟨hsmall, hlen⟩ :=
      small_of_read w hw _ ((List.prefix_append _ _).trans h) hsize
    obtain ⟨-, hrest⟩ := prefix_split h hlen
    rw [List.length_append] at hsize
    exact ⟨hsmall, smallList_of_read ws hws rest hrest (by omega)⟩

end

/-- A packet that is decoded from its large layout has no large count. -/
theorem decodePayload_largePayload_ne {p : Packet} (hlarge : p.HasLarge)
    (hsize : p.largePayload.length < 2 ^ 32) : Packet.decodePayload p.largePayload ≠ .ok p := by
  intro h
  obtain ⟨w, ⟨hcount, hfits⟩, rfl, hpre⟩ := Packet.decodePayload_iff.mp h
  have hlist : BigEndian.toBytes 2 w.tags.length ++ (bytesList w.tags ++ []) <+:
      largeCount w.tags.length ++ (largeTags (tags w.tags) ++ []) := by
    rw [WirePacket.bytes, Packet.largePayload, WirePacket.packet, length_tags] at hpre
    rw [List.append_nil, List.append_nil]
    exact (prefix_split (x := [w.opcode]) (y := [w.opcode]) hpre rfl).2
  have hbound : (largeTags (tags w.tags) ++ []).length < 2 ^ 32 := by
    simp only [Packet.largePayload, WirePacket.packet, List.length_cons, List.length_append]
      at hsize
    rw [List.append_nil]
    omega
  obtain ⟨hsmall, hrest⟩ := small_of_count hfits hcount hlist hbound
  rcases hlarge with htop | hdeep
  · have hlen : w.packet.tags.length = w.tags.length := length_tags w.tags
    omega
  · refine hdeep (smallList_of_read w.tags hfits [] ?_ hbound)
    rwa [List.append_nil] at hrest

theorem reply_largeFrame_ne {p : Packet} (hlarge : p.HasLarge)
    (hsize : p.largePayload.length < 2 ^ 32) : (p.largeFrame hsize).reply ≠ .ok p := by
  have hplain : ¬(Flag.base ||| Flag.largeTagCount) &&& Flag.zlib ≠ 0 := by decide
  have hne := decodePayload_largePayload_ne hlarge hsize
  rw [Frame.reply, Packet.largeFrame, if_neg hplain]
  cases hdecode : Packet.decodePayload p.largePayload with
  | ok p' =>
    rw [hdecode] at hne
    exact fun h => hne (congrArg Except.ok (Except.ok.inj h))
  | error message => simp [Except.mapError]

/-- No reply with a large count is read as the packet the daemon has sent. -/
theorem readPacket_ne_of_hasLarge (p : Packet) (hlarge : p.HasLarge)
    (hsize : p.largePayload.length < 2 ^ 32) (rest : QByteArray) (s : Socket) (hs : s.Delivers)
    (hunread : s.unread = (p.largeFrame hsize).bytes ++ rest) : (readPacket s).1 ≠ .ok p := by
  obtain ⟨s', hread, -, -⟩ := readPacket_spec _ rest s hs hunread
  rw [hread]
  exact reply_largeFrame_ne hlarge hsize

omit [Qt] in
theorem length_largeCount {n : ℕ} (h : 65535 ≤ n) : (largeCount n).length = 6 := by
  rw [largeCount, if_neg (by omega), List.length_append, BigEndian.length_toBytes]
  rfl

omit [Qt] in
/-- The frame is all that a connection brings. -/
theorem Frame.unread_ofChunks (f : Frame) : (Socket.ofChunks [f.bytes]).Delivers ∧
    (Socket.ofChunks [f.bytes]).unread = f.bytes ++ [] := by
  refine ⟨Socket.delivers_ofChunks fun chunk hchunk => ?_, ?_⟩
  · rw [List.mem_singleton.mp hchunk]
    refine List.ne_nil_of_length_pos ?_
    simp only [Frame.bytes, List.length_append, BigEndian.length_toBytes]
    omega
  · simp [Socket.ofChunks, Socket.unread, Arrival.bytes]

end

/-- A list of files. -/
def sampleFiles (n : ℕ) : List Tag := List.replicate n (Tag.empty TagName.knownfile)

/-- A list of files below the top level. -/
def sampleNested (n : ℕ) : Tag := ⟨TagName.knownfile, .empty, sampleFiles n⟩

section

variable [Qt]

omit [Qt] in
theorem length_sampleFiles (n : ℕ) : (sampleFiles n).length = n := List.length_replicate

theorem length_largeTags_sampleFiles (n : ℕ) : (largeTags (sampleFiles n)).length = 7 * n := by
  induction n with
  | zero => rfl
  | succ n ih =>
    rw [sampleFiles, List.replicate_succ, largeTags, ← sampleFiles, List.length_append, ih,
      Tag.empty, length_largeTag]
    simp only [List.isEmpty_nil, if_true, largeTags, encodeValue, List.length_nil]
    omega

theorem length_largePayload_sampleFiles {n : ℕ} (hn : 65535 ≤ n) (opcode : UInt8) :
    (Packet.mk opcode (sampleFiles n)).largePayload.length = 7 + 7 * n := by
  rw [Packet.largePayload, List.length_cons, List.length_append, length_sampleFiles,
    length_largeCount hn, length_largeTags_sampleFiles]
  omega

theorem length_largePayload_sampleNested {n : ℕ} (hn : 65535 ≤ n) (opcode : UInt8) :
    (Packet.mk opcode [sampleNested n]).largePayload.length = 16 + 7 * n := by
  have hsome : (sampleFiles n).isEmpty = false := by
    rw [List.isEmpty_eq_false_iff, ← List.length_pos_iff, length_sampleFiles]
    omega
  rw [Packet.largePayload, List.length_cons, List.length_append, largeTags, List.length_append,
    sampleNested, length_largeTag, hsome, length_sampleFiles, length_largeCount hn,
    length_largeTags_sampleFiles, largeTags, encodeValue, List.length_singleton,
    largeCount_of_lt (by omega), BigEndian.length_toBytes]
  simp only [Bool.false_eq_true, if_false, List.length_nil]
  omega

omit [Qt] in
theorem hasLarge_sampleNested {n : ℕ} (hn : 65535 ≤ n) (opcode : UInt8) :
    (Packet.mk opcode [sampleNested n]).HasLarge := by
  refine .inr fun h => ?_
  have hsmall : (sampleFiles n).length < 65535 := h.1.1
  rw [length_sampleFiles] at hsmall
  omega

omit [Qt] in
theorem hasLarge_sampleFiles {n : ℕ} (hn : 65535 ≤ n) (opcode : UInt8) :
    (Packet.mk opcode (sampleFiles n)).HasLarge :=
  .inl (hn.trans_eq (length_sampleFiles n).symm)

end

/-- 65535 files below the top level. -/
theorem readPacket_sampleNested :
    letI := sampleQt
    ∃ hsize, (readPacket (Socket.ofChunks
      [((Packet.mk Op.sharedFiles [sampleNested 65535]).largeFrame hsize).bytes])).1 ≠
        .ok (Packet.mk Op.sharedFiles [sampleNested 65535]) :=
  letI := sampleQt
  have hsize : (Packet.mk Op.sharedFiles [sampleNested 65535]).largePayload.length < 2 ^ 32 :=
    (length_largePayload_sampleNested le_rfl _).trans_lt (by decide)
  ⟨hsize, readPacket_ne_of_hasLarge _ (hasLarge_sampleNested le_rfl _) hsize [] _
    (Frame.unread_ofChunks _).1 (Frame.unread_ofChunks _).2⟩

/-- The client asks for large counts, and does not read a list of 65536 files. -/
theorem readPacket_sampleFiles :
    letI := sampleQt
    EcClient.authRequest.tag TagName.canLargeTagCount = some (.empty TagName.canLargeTagCount) ∧
      ∃ hsize, (readPacket (Socket.ofChunks
        [((Packet.mk Op.sharedFiles (sampleFiles 65536)).largeFrame hsize).bytes])).1 ≠
          .ok (Packet.mk Op.sharedFiles (sampleFiles 65536)) := by
  let _ : Qt := sampleQt
  have hn : 65535 ≤ 65536 := by decide
  have hsize : (Packet.mk Op.sharedFiles (sampleFiles 65536)).largePayload.length < 2 ^ 32 :=
    (length_largePayload_sampleFiles hn _).trans_lt (by decide)
  obtain ⟨hdelivers, hunread⟩ :=
    Frame.unread_ofChunks ((Packet.mk Op.sharedFiles (sampleFiles 65536)).largeFrame hsize)
  obtain ⟨s', hread, -, -⟩ := readPacket_spec _ [] _ hdelivers hunread
  refine ⟨by decide, hsize, ?_⟩
  rw [hread]
  exact reply_largeFrame_ne (hasLarge_sampleFiles hn _) hsize

end Amule.Ec
