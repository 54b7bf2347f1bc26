import AmuleRemote.Ec.Codec

/-!
# The wire grammar

The byte strings that the decoder accepts, as the wire forms of trees. A wire tag
keeps what a decoded tag no longer shows: the wire name with its children flag,
the type byte and the bytes of the data. Its length field is not kept, since it
says how long the children and the data are.

A cursor `Sees` a list of bytes when these are what it has left to read. Every
read of the decoder is specified by what the cursor sees before and after.

## Main results

- `readTag_iff` — a tag is read exactly if the cursor sees a wire form of it
- `decodePayload_iff` — a payload is accepted exactly if it is a wire form of the
  packet, with anything after it
-/

namespace Amule.Ec

namespace Cursor

/-- The bytes `cur` has left to read are `rest`. -/
def Sees (cur : Cursor) (rest : QByteArray) : Prop :=
  0 ≤ cur.pos ∧ cur.pos ≤ cur.buf.length ∧ cur.buf.drop cur.pos.toNat = rest

def advance (cur : Cursor) (n : ℕ) : Cursor := { cur with pos := cur.pos + n }

@[simp] theorem pos_advance (cur : Cursor) (n : ℕ) : (cur.advance n).pos = cur.pos + n := rfl

theorem advance_advance (cur : Cursor) (m n : ℕ) :
    (cur.advance m).advance n = cur.advance (m + n) := by
  simp only [advance, Nat.cast_add, add_assoc]

theorem Sees.remaining {cur : Cursor} {rest : QByteArray} (h : cur.Sees rest) :
    cur.remaining = rest.length := by
  obtain ⟨h0, hle, hdrop⟩ := h
  rw [← hdrop, List.length_drop, Cursor.remaining]
  omega

theorem Sees.advance {cur : Cursor} {xs rest : QByteArray} (h : cur.Sees (xs ++ rest)) :
    (cur.advance xs.length).Sees rest := by
  have hrem := h.remaining
  obtain ⟨h0, hle, hdrop⟩ := h
  rw [Cursor.remaining, List.length_append] at hrem
  refine ⟨?_, ?_, ?_⟩
  · rw [pos_advance]
    omega
  · change cur.pos + xs.length ≤ cur.buf.length
    omega
  · change cur.buf.drop (cur.pos + xs.length).toNat = rest
    rw [Int.toNat_add h0 (Int.natCast_nonneg _), Int.toNat_natCast, ← List.drop_drop, hdrop,
      List.drop_left]

theorem Sees.take {cur : Cursor} {xs rest : QByteArray} (h : cur.Sees (xs ++ rest)) :
    cur.take xs.length = .ok (xs, cur.advance xs.length) := by
  have hrem := h.remaining
  rw [List.length_append] at hrem
  have hnot : ¬cur.remaining < xs.length := by omega
  rw [Cursor.take, if_neg hnot, h.2.2, Int.toNat_natCast, List.take_left]
  rfl

theorem Sees.u8 {cur : Cursor} {b : UInt8} {rest : QByteArray} (h : cur.Sees (b :: rest)) :
    cur.u8 = .ok (b, cur.advance 1) ∧ (cur.advance 1).Sees rest := by
  have hb : cur.Sees ([b] ++ rest) := h
  refine ⟨?_, hb.advance⟩
  have htake : cur.take 1 = .ok ([b], cur.advance 1) := hb.take
  rw [Cursor.u8, htake]
  simp [bind, Except.bind, pure, Except.pure, BigEndian.ofBytes]

theorem Sees.u16 {cur : Cursor} {v : UInt16} {rest : QByteArray}
    (h : cur.Sees (BigEndian.toBytes 2 v.toNat ++ rest)) :
    cur.u16 = .ok (v, cur.advance 2) ∧ (cur.advance 2).Sees rest := by
  have hlen := BigEndian.length_toBytes 2 v.toNat
  have htake := h.take
  have hrest := h.advance
  rw [hlen] at htake hrest
  refine ⟨?_, hrest⟩
  change cur.take 2 = _ at htake
  rw [Cursor.u16, htake]
  simp [bind, Except.bind, pure, Except.pure,
    BigEndian.ofBytes_toBytes_of_lt (w := 2) v.toNat_lt]

theorem Sees.u32 {cur : Cursor} {v : UInt32} {rest : QByteArray}
    (h : cur.Sees (BigEndian.toBytes 4 v.toNat ++ rest)) :
    cur.u32 = .ok (v, cur.advance 4) ∧ (cur.advance 4).Sees rest := by
  have hlen := BigEndian.length_toBytes 4 v.toNat
  have htake := h.take
  have hrest := h.advance
  rw [hlen] at htake hrest
  refine ⟨?_, hrest⟩
  change cur.take 4 = _ at htake
  rw [Cursor.u32, htake]
  simp [bind, Except.bind, pure, Except.pure,
    BigEndian.ofBytes_toBytes_of_lt (w := 4) v.toNat_lt]

/-- A count that fits is read back. -/
theorem Sees.u16_ofNat {cur : Cursor} {n : ℕ} {rest : QByteArray} (hn : n ≤ 65535)
    (h : cur.Sees (BigEndian.toBytes 2 n ++ rest)) :
    (∃ v : UInt16, v.toNat = n ∧ cur.u16 = .ok (v, cur.advance 2)) ∧
      (cur.advance 2).Sees rest := by
  have hcast : (UInt16.ofNat n).toNat = n := UInt16.toNat_ofNat_of_lt' (Nat.lt_succ_of_le hn)
  rw [← hcast] at h
  exact ⟨⟨_, hcast, h.u16.1⟩, h.u16.2⟩

theorem Sees.u32_ofNat {cur : Cursor} {n : ℕ} {rest : QByteArray} (hn : n < 2 ^ 32)
    (h : cur.Sees (BigEndian.toBytes 4 n ++ rest)) :
    (∃ v : UInt32, v.toNat = n ∧ cur.u32 = .ok (v, cur.advance 4)) ∧
      (cur.advance 4).Sees rest := by
  have hcast : (UInt32.ofNat n).toNat = n := UInt32.toNat_ofNat_of_lt' hn
  rw [← hcast] at h
  exact ⟨⟨_, hcast, h.u32.1⟩, h.u32.2⟩

end Cursor

/-- The data read is what the declared length has left after the children. -/
theorem readData_sees {cur : Cursor} {data rest : QByteArray} (len bodyStart : ℤ)
    (h : cur.Sees (data ++ rest)) (hlen : len = cur.pos - bodyStart + data.length) :
    readData len bodyStart cur = .ok (data, cur.advance data.length) := by
  have hnot : ¬len < cur.pos - bodyStart := by omega
  have hdata : len - (cur.pos - bodyStart) = data.length := by omega
  simp only [readData, if_neg hnot, hdata]
  exact h.take

/-! ## Wire forms -/

/-- A tag as it is laid out on the wire. -/
structure WireTag where
  nameWire : UInt16
  type : UInt8
  children : List WireTag := []
  data : QByteArray := []

/-- The lowest bit of the wire name, which announces a subtag count. -/
def hasChildren (nameWire : UInt16) : Bool := nameWire &&& 1 ≠ 0

namespace WireTag

mutual

def bytes : WireTag → QByteArray
  | ⟨nameWire, type, children, data⟩ =>
    BigEndian.toBytes 2 nameWire.toNat ++ ([type] ++
      (BigEndian.toBytes 4 ((bytesList children).length + data.length) ++
        ((if hasChildren nameWire then BigEndian.toBytes 2 children.length ++ bytesList children
          else []) ++ data)))

def bytesList : List WireTag → QByteArray
  | [] => []
  | w :: ws => bytes w ++ bytesList ws

end

mutual

/-- `P` holds at every node of a tree. -/
def Forall (P : WireTag → Prop) : WireTag → Prop
  | ⟨nameWire, type, children, data⟩ => P ⟨nameWire, type, children, data⟩ ∧ ForallList P children

def ForallList (P : WireTag → Prop) : List WireTag → Prop
  | [] => True
  | w :: ws => Forall P w ∧ ForallList P ws

end

/-- There are children only where the flag says so, and the count and the length fit their
    fields. -/
structure FitsNode (w : WireTag) : Prop where
  flagged : hasChildren w.nameWire = false → w.children = []
  count : w.children.length ≤ 65535
  size : (bytesList w.children).length + w.data.length < 2 ^ 32

abbrev Fits (w : WireTag) : Prop := w.Forall FitsNode

section tag

variable [Qt]

mutual

/-- The tag that a wire form stands for. -/
def tag : WireTag → Tag
  | ⟨nameWire, type, children, data⟩ => ⟨nameWire >>> 1, decodeValue type data, tags children⟩

def tags : List WireTag → List Tag
  | [] => []
  | w :: ws => tag w :: tags ws

end

@[simp] theorem length_tags (ws : List WireTag) : (tags ws).length = ws.length := by
  induction ws with
  | nil => rfl
  | cons w ws ih => simp [tags, ih]

end tag

mutual

theorem Forall.imp {C P Q : WireTag → Prop} (h : ∀ w, C w → P w → Q w) :
    (w : WireTag) → w.Forall C → w.Forall P → w.Forall Q
  | ⟨_, _, children, _⟩, hC, hP => ⟨h _ hC.1 hP.1, ForallList.imp h children hC.2 hP.2⟩

/-- What follows at every node where `C` holds. -/
theorem ForallList.imp {C P Q : WireTag → Prop} (h : ∀ w, C w → P w → Q w) :
    (ws : List WireTag) → ForallList C ws → ForallList P ws → ForallList Q ws
  | [], _, _ => trivial
  | w :: ws, hC, hP => ⟨Forall.imp h w hC.1 hP.1, ForallList.imp h ws hC.2 hP.2⟩

end

theorem Forall.head {P : WireTag → Prop} {w : WireTag} (h : w.Forall P) : P w := by
  obtain ⟨nameWire, type, children, data⟩ := w
  exact h.1

theorem forall_of_mem {P : WireTag → Prop} {ws : List WireTag} (h : ForallList P ws) {w : WireTag}
    (hw : w ∈ ws) : w.Forall P := by
  induction ws with
  | nil => exact absurd hw List.not_mem_nil
  | cons w' ws ih =>
    cases List.mem_cons.mp hw with
    | inl heq => exact heq ▸ h.1
    | inr htail => exact ih h.2 htail

theorem length_bytes (w : WireTag) : w.bytes.length =
    7 + ((if hasChildren w.nameWire then 2 + (bytesList w.children).length else 0) +
      w.data.length) := by
  obtain ⟨nameWire, type, children, data⟩ := w
  by_cases hflag : hasChildren nameWire = true
  · simp only [bytes, if_pos hflag, List.length_append, BigEndian.length_toBytes,
      List.length_singleton]
    omega
  · simp only [bytes, if_neg hflag, List.length_append, BigEndian.length_toBytes,
      List.length_singleton, List.length_nil]
    omega

theorem length_le_bytesList {w : WireTag} {ws : List WireTag} (h : w ∈ ws) :
    w.bytes.length ≤ (bytesList ws).length := by
  induction ws with
  | nil => exact absurd h List.not_mem_nil
  | cons w' ws ih =>
    rw [bytesList, List.length_append]
    cases List.mem_cons.mp h with
    | inl heq => rw [heq]; omega
    | inr htail => exact (ih htail).trans (Nat.le_add_left _ _)

end WireTag

/-! ## Every wire form is read -/

open WireTag

section

variable [Qt]

theorem readMany_bytes {read : Cursor → Except DecodeError (Tag × Cursor)} {ws : List WireTag}
    (hread : ∀ w ∈ ws, ∀ (cur : Cursor) (rest : QByteArray), cur.Sees (w.bytes ++ rest) →
      read cur = .ok (w.tag, cur.advance w.bytes.length))
    {cur : Cursor} {rest : QByteArray} (h : cur.Sees (bytesList ws ++ rest)) :
    readMany read ws.length cur = .ok (tags ws, cur.advance (bytesList ws).length) := by
  induction ws generalizing cur with
  | nil => simp [readMany, tags, bytesList, Cursor.advance, pure, Except.pure]
  | cons w ws ih =>
    rw [bytesList, List.append_assoc] at h
    have hw := hread w List.mem_cons_self cur _ h
    have hws := ih (fun w' hw' => hread w' (List.mem_cons_of_mem _ hw')) h.advance
    simp only [List.length_cons, readMany, bind, Except.bind, hw, hws, pure, Except.pure,
      Cursor.advance_advance, tags, bytesList, List.length_append]

/-- The bytes of a wire form are read as its tag, whatever follows them. -/
theorem readTagAux_bytes (bound : ℕ) : ∀ (w : WireTag), w.Fits → ∀ (cur : Cursor)
    (rest : QByteArray), w.bytes.length ≤ bound → cur.Sees (w.bytes ++ rest) →
      readTagAux bound cur = .ok (w.tag, cur.advance w.bytes.length) := by
  induction bound with
  | zero =>
    intro w hw cur rest hbound
    rw [length_bytes] at hbound
    omega
  | succ bound ih =>
    rintro ⟨nameWire, type, children, data⟩ ⟨hnode, hkids⟩ cur rest hbound hsees
    rw [length_bytes] at hbound
    rw [length_bytes]
    obtain ⟨hflagged, hcount, hsize⟩ := hnode
    simp only at hflagged hcount hsize hbound ⊢
    simp only [bytes, List.append_assoc] at hsees
    obtain ⟨hread1, hsees⟩ := hsees.u16
    obtain ⟨hread2, hsees⟩ := Cursor.Sees.u8 (b := type) hsees
    obtain ⟨⟨len, hlen, hread3⟩, hsees⟩ := Cursor.Sees.u32_ofNat hsize hsees
    by_cases hflag : hasChildren nameWire = true
    · -- the count is not part of the length, so reading starts after it
      rw [if_pos hflag] at hbound ⊢
      rw [if_pos hflag, List.append_assoc] at hsees
      obtain ⟨⟨count, hcast, hread4⟩, hsees⟩ := hsees.u16_ofNat hcount
      have hmany : readMany (readTagAux bound) children.length _ = _ :=
        readMany_bytes (fun w hw cur rest h => by
          have hle := length_le_bytesList hw
          exact ih w (forall_of_mem hkids hw) cur rest (by omega) h) hsees
      have hdata := readData_sees len.toNat ((((cur.advance 2).advance 1).advance 4).advance 2).pos
        hsees.advance
        (by rw [hlen, Cursor.pos_advance _ (bytesList children).length]; push_cast; ring)
      have hflag : decide (nameWire &&& 1 ≠ 0) = true := hflag
      simp only [readTagAux, readChildren, bind, Except.bind, hread1, hread2, hread3, hflag,
        if_true, hread4, hcast, hmany, hdata, pure, Except.pure, tag]
      have htotal : 2 + 1 + 4 + 2 + (bytesList children).length + data.length =
          7 + (2 + (bytesList children).length + data.length) := by omega
      simp only [Cursor.advance_advance, htotal]
    · have hnone : children = [] := hflagged (eq_false_of_ne_true hflag)
      subst hnone
      rw [if_neg hflag] at hbound ⊢
      rw [if_neg hflag, List.nil_append] at hsees
      have hdata := readData_sees len.toNat (((cur.advance 2).advance 1).advance 4).pos hsees
        (by rw [hlen]; simp [bytesList])
      have hflag : decide (nameWire &&& 1 ≠ 0) = false := eq_false_of_ne_true hflag
      simp only [readTagAux, readChildren, bind, Except.bind, hread1, hread2, hread3, hflag,
        Bool.false_eq_true, if_false, hdata, pure, Except.pure, tag, tags]
      have htotal : 2 + 1 + 4 + data.length = 7 + (0 + data.length) := by omega
      simp only [Cursor.advance_advance, htotal]

/-! ## Whatever is read is a wire form -/

omit [Qt] in
/-- A computation that returns went through. -/
theorem bind_eq_ok {ε α β : Type} {x : Except ε α} {f : α → Except ε β} {b : β}
    (h : x >>= f = .ok b) : ∃ a, x = .ok a ∧ f a = .ok b := by
  cases x with
  | error e => exact nomatch h
  | ok a => exact ⟨a, rfl, h⟩

omit [Qt] in
theorem Cursor.Sees.of_take {cur cur' : Cursor} {b xs : QByteArray} {n : ℤ} (h : cur.Sees b)
    (hn : 0 ≤ n) (htake : cur.take n = .ok (xs, cur')) :
    ∃ rest, b = xs ++ rest ∧ (xs.length : ℤ) = n ∧ cur' = cur.advance xs.length := by
  have hrem := h.remaining
  unfold Cursor.take at htake
  split at htake
  · exact nomatch htake
  next hle =>
    obtain ⟨rfl, rfl⟩ := Prod.mk.inj (Except.ok.inj htake)
    have hlen : ((b.take n.toNat).length : ℤ) = n := by
      rw [List.length_take]
      omega
    rw [h.2.2]
    refine ⟨b.drop n.toNat, (List.take_append_drop _ _).symm, hlen, ?_⟩
    rw [Cursor.advance, hlen]

omit [Qt] in
theorem Cursor.Sees.of_u8 {cur cur' : Cursor} {b : QByteArray} {v : UInt8} (h : cur.Sees b)
    (hread : cur.u8 = .ok (v, cur')) : ∃ rest, b = [v] ++ rest ∧ cur' = cur.advance 1 := by
  obtain ⟨⟨xs, cur₁⟩, htake, hpure⟩ := bind_eq_ok hread
  obtain ⟨rest, rfl, hlen, rfl⟩ := h.of_take (by omega) htake
  obtain ⟨rfl, rfl⟩ := Prod.mk.inj (Except.ok.inj hpure)
  obtain ⟨x, rfl⟩ := List.length_eq_one_iff.mp (Int.ofNat.inj hlen)
  refine ⟨rest, ?_, rfl⟩
  simp [BigEndian.ofBytes]

omit [Qt] in
theorem Cursor.Sees.advance_toBytes {cur : Cursor} {w v : ℕ} {rest : QByteArray}
    (h : cur.Sees (BigEndian.toBytes w v ++ rest)) : (cur.advance w).Sees rest := by
  have hrest := h.advance
  rwa [BigEndian.length_toBytes] at hrest

omit [Qt] in
/-- Two bytes that are read as a number are the number's bytes. -/
theorem Cursor.Sees.of_u16 {cur cur' : Cursor} {b : QByteArray} {v : UInt16} (h : cur.Sees b)
    (hread : cur.u16 = .ok (v, cur')) :
    ∃ rest, b = BigEndian.toBytes 2 v.toNat ++ rest ∧ cur' = cur.advance 2 := by
  obtain ⟨⟨xs, cur₁⟩, htake, hpure⟩ := bind_eq_ok hread
  obtain ⟨rest, rfl, hlen, rfl⟩ := h.of_take (by omega) htake
  obtain ⟨rfl, rfl⟩ := Prod.mk.inj (Except.ok.inj hpure)
  have hlen : xs.length = 2 := Int.ofNat.inj hlen
  have hlt := BigEndian.ofBytes_lt xs
  have hback := BigEndian.toBytes_ofBytes xs
  rw [hlen] at hlt hback
  refine ⟨rest, ?_, by rw [hlen]⟩
  rw [UInt16.toNat_ofNat_of_lt' hlt, hback]

omit [Qt] in
theorem Cursor.Sees.of_u32 {cur cur' : Cursor} {b : QByteArray} {v : UInt32} (h : cur.Sees b)
    (hread : cur.u32 = .ok (v, cur')) :
    ∃ rest, b = BigEndian.toBytes 4 v.toNat ++ rest ∧ cur' = cur.advance 4 := by
  obtain ⟨⟨xs, cur₁⟩, htake, hpure⟩ := bind_eq_ok hread
  obtain ⟨rest, rfl, hlen, rfl⟩ := h.of_take (by omega) htake
  obtain ⟨rfl, rfl⟩ := Prod.mk.inj (Except.ok.inj hpure)
  have hlen : xs.length = 4 := Int.ofNat.inj hlen
  have hlt := BigEndian.ofBytes_lt xs
  have hback := BigEndian.toBytes_ofBytes xs
  rw [hlen] at hlt hback
  refine ⟨rest, ?_, by rw [hlen]⟩
  rw [UInt32.toNat_ofNat_of_lt' hlt, hback]

/-- Reads of wire forms, one after the other, read the wire forms in a row. -/
theorem readMany_sound {read : Cursor → Except DecodeError (Tag × Cursor)}
    (hread : ∀ (cur : Cursor) (b : QByteArray) (t : Tag) (cur' : Cursor), cur.Sees b →
      read cur = .ok (t, cur') → ∃ w : WireTag, ∃ rest, w.Fits ∧ w.tag = t ∧ b = w.bytes ++ rest ∧
        cur' = cur.advance w.bytes.length)
    (count : ℕ) (cur : Cursor) (b : QByteArray) (ts : List Tag) (cur' : Cursor) (h : cur.Sees b)
    (hmany : readMany read count cur = .ok (ts, cur')) :
    ∃ ws rest, ws.length = count ∧ ForallList FitsNode ws ∧ tags ws = ts ∧
      b = bytesList ws ++ rest ∧ cur' = cur.advance (bytesList ws).length := by
  induction count generalizing cur b ts with
  | zero =>
    obtain ⟨rfl, rfl⟩ := Prod.mk.inj (Except.ok.inj hmany)
    exact ⟨[], b, rfl, trivial, rfl, rfl, by simp [bytesList, Cursor.advance]⟩
  | succ count ih =>
    obtain ⟨⟨t, cur₁⟩, hone, hrest⟩ := bind_eq_ok hmany
    obtain ⟨⟨ts, cur₂⟩, hothers, hpure⟩ := bind_eq_ok hrest
    obtain ⟨rfl, rfl⟩ := Prod.mk.inj (Except.ok.inj hpure)
    obtain ⟨w, rest, hfits, rfl, rfl, rfl⟩ := hread cur b t cur₁ h hone
    obtain ⟨ws, rest, hlen, hall, rfl, rfl, rfl⟩ := ih _ _ _ h.advance hothers
    refine ⟨w :: ws, rest, congrArg Nat.succ hlen, ⟨hfits, hall⟩, rfl, ?_, ?_⟩
    · rw [bytesList, List.append_assoc]
    · rw [Cursor.advance_advance, bytesList, List.length_append]

/-- The subtag count and the children of a node, nothing where the flag is not set. -/
def countedBytes (nameWire : UInt16) (ws : List WireTag) : QByteArray :=
  if hasChildren nameWire then BigEndian.toBytes 2 ws.length ++ bytesList ws else []

theorem readChildren_sound {read : Cursor → Except DecodeError (Tag × Cursor)}
    (hread : ∀ (cur : Cursor) (b : QByteArray) (t : Tag) (cur' : Cursor), cur.Sees b →
      read cur = .ok (t, cur') → ∃ w : WireTag, ∃ rest, w.Fits ∧ w.tag = t ∧ b = w.bytes ++ rest ∧
        cur' = cur.advance w.bytes.length)
    {nameWire : UInt16} {cur cur' : Cursor} {b : QByteArray} {ts : List Tag} {bodyStart : ℤ}
    (h : cur.Sees b)
    (hchildren : readChildren read (nameWire &&& 1 ≠ 0) cur = .ok (ts, bodyStart, cur')) :
    ∃ ws rest, (hasChildren nameWire = false → ws = []) ∧ ws.length ≤ 65535 ∧
      ForallList FitsNode ws ∧ tags ws = ts ∧ b = countedBytes nameWire ws ++ rest ∧
      cur' = cur.advance (countedBytes nameWire ws).length ∧
      cur'.pos - bodyStart = (bytesList ws).length := by
  change readChildren read (hasChildren nameWire) cur = _ at hchildren
  unfold readChildren at hchildren
  by_cases hflag : hasChildren nameWire = true
  · rw [if_pos hflag] at hchildren
    obtain ⟨⟨count, cur₁⟩, hread1, hrest⟩ := bind_eq_ok hchildren
    obtain ⟨⟨children, cur₂⟩, hmany, hpure⟩ := bind_eq_ok hrest
    obtain ⟨rfl, hpair⟩ := Prod.mk.inj (Except.ok.inj hpure)
    obtain ⟨rfl, rfl⟩ := Prod.mk.inj hpair
    obtain ⟨b, rfl, rfl⟩ := h.of_u16 hread1
    obtain ⟨ws, rest, hlen, hall, rfl, rfl, rfl⟩ :=
      readMany_sound hread _ _ _ _ _ h.advance_toBytes hmany
    have hcount := count.toNat_lt
    refine ⟨ws, rest, fun hnot => absurd hflag (by simp [hnot]), by omega, hall, rfl, ?_, ?_, ?_⟩
    · rw [countedBytes, if_pos hflag, hlen, List.append_assoc]
    · rw [countedBytes, if_pos hflag, List.length_append, BigEndian.length_toBytes,
        Cursor.advance_advance]
    · rw [Cursor.pos_advance _ (bytesList ws).length]
      omega
  · rw [if_neg hflag] at hchildren
    obtain ⟨rfl, hpair⟩ := Prod.mk.inj (Except.ok.inj hchildren)
    obtain ⟨rfl, rfl⟩ := Prod.mk.inj hpair
    refine ⟨[], b, fun _ => rfl, Nat.zero_le _, trivial, rfl, ?_, ?_, ?_⟩
    · rw [countedBytes, if_neg hflag]
      rfl
    · simp [countedBytes, hflag, Cursor.advance]
    · simp [bytesList]

omit [Qt] in
theorem readData_sound {len bodyStart : ℤ} {cur cur' : Cursor} {b data : QByteArray}
    (h : cur.Sees b) (hdata : readData len bodyStart cur = .ok (data, cur')) :
    ∃ rest, b = data ++ rest ∧ len = cur.pos - bodyStart + data.length ∧
      cur' = cur.advance data.length := by
  simp only [readData] at hdata
  split at hdata
  · exact nomatch hdata
  next hle =>
    obtain ⟨rest, hb, hlen, hcur⟩ := h.of_take (by omega) hdata
    exact ⟨rest, hb, by omega, hcur⟩

/-- Whatever a tag is read from starts with a wire form of it, and the cursor moves past it. -/
theorem readTagAux_sound (bound : ℕ) : ∀ (cur : Cursor) (b : QByteArray) (t : Tag) (cur' : Cursor),
    cur.Sees b → readTagAux bound cur = .ok (t, cur') → ∃ w : WireTag, ∃ rest, w.Fits ∧
      w.tag = t ∧ b = w.bytes ++ rest ∧ cur' = cur.advance w.bytes.length := by
  induction bound with
  | zero => exact fun _ _ _ _ _ h => nomatch h
  | succ bound ih =>
    intro cur b t cur' hsees h
    obtain ⟨⟨nameWire, cur₁⟩, hread1, h₁⟩ := bind_eq_ok h
    obtain ⟨⟨type, cur₂⟩, hread2, h₂⟩ := bind_eq_ok h₁
    obtain ⟨⟨len, cur₃⟩, hread3, h₃⟩ := bind_eq_ok h₂
    obtain ⟨⟨children, bodyStart, cur₄⟩, hchildren, h₄⟩ := bind_eq_ok h₃
    obtain ⟨⟨data, cur₅⟩, hdata, hpure⟩ := bind_eq_ok h₄
    obtain ⟨rfl, rfl⟩ := Prod.mk.inj (Except.ok.inj hpure)
    obtain ⟨b, rfl, rfl⟩ := hsees.of_u16 hread1
    have hsees := hsees.advance_toBytes
    obtain ⟨b, rfl, rfl⟩ := hsees.of_u8 hread2
    have hsees := hsees.advance
    obtain ⟨b, rfl, rfl⟩ := hsees.of_u32 hread3
    have hsees := hsees.advance_toBytes
    obtain ⟨ws, b, hflagged, hcount, hall, rfl, rfl, rfl, hbody⟩ :=
      readChildren_sound ih hsees hchildren
    obtain ⟨rest, rfl, hlen, rfl⟩ := readData_sound hsees.advance hdata
    have hlen : len.toNat = (bytesList ws).length + data.length := by omega
    have hlt := len.toNat_lt
    refine ⟨⟨nameWire, type, ws, data⟩, rest, ⟨⟨hflagged, hcount, by simp only; omega⟩, hall⟩, rfl,
      ?_, ?_⟩
    · simp only [bytes, countedBytes, hlen, List.append_assoc]
    · have hcounted : (countedBytes nameWire ws).length =
          if hasChildren nameWire then 2 + (bytesList ws).length else 0 := by
        rw [countedBytes]
        split
        · rw [List.length_append, BigEndian.length_toBytes]
        · rfl
      have htotal :
          2 + ([type].length + (4 + ((countedBytes nameWire ws).length + data.length))) =
            (WireTag.mk nameWire type ws data).bytes.length := by
        rw [length_bytes, hcounted, List.length_singleton]
        simp only
        omega
      rw [Cursor.advance_advance, Cursor.advance_advance, Cursor.advance_advance,
        Cursor.advance_advance, htotal]

/-- A tag is read exactly if what the cursor sees starts with a wire form of it. -/
theorem readTag_iff {cur cur' : Cursor} {b : QByteArray} {t : Tag} (h : cur.Sees b) :
    readTag cur = .ok (t, cur') ↔ ∃ w : WireTag, ∃ rest, w.Fits ∧ w.tag = t ∧
      b = w.bytes ++ rest ∧ cur' = cur.advance w.bytes.length := by
  constructor
  · exact readTagAux_sound _ cur b t cur' h
  · rintro ⟨w, rest, hfits, rfl, rfl, rfl⟩
    have hrem := h.remaining
    rw [List.length_append] at hrem
    exact readTagAux_bytes _ w hfits cur rest (by omega) h

end

/-! ## Packets -/

/-- A packet as it is laid out in a payload. -/
structure WirePacket where
  opcode : UInt8
  tags : List WireTag := []

namespace WirePacket

def bytes (w : WirePacket) : QByteArray :=
  w.opcode :: (BigEndian.toBytes 2 w.tags.length ++ bytesList w.tags)

structure Fits (w : WirePacket) : Prop where
  count : w.tags.length ≤ 65535
  tags : ForallList FitsNode w.tags

def packet [Qt] (w : WirePacket) : Packet := ⟨w.opcode, WireTag.tags w.tags⟩

theorem length_bytes (w : WirePacket) : w.bytes.length = 3 + (bytesList w.tags).length := by
  simp only [bytes, List.length_cons, List.length_append, BigEndian.length_toBytes]
  omega

end WirePacket

/-- A cursor that has read an opcode, a count and `n` bytes. -/
theorem Cursor.advance_header (b : QByteArray) (n : ℕ) :
    ((Cursor.advance { buf := b } 1).advance 2).advance n = { buf := b, pos := (3 + n : ℕ) } := by
  simp only [Cursor.advance, Cursor.mk.injEq, true_and]
  omega

namespace Packet

/-- The decoder's run ends behind a wire form of the packet. -/
theorem decode_iff [Qt] {b : QByteArray} {p : Packet} {cur : Cursor} :
    Packet.decode b = .ok (p, cur) ↔ ∃ w : WirePacket, w.Fits ∧ w.packet = p ∧ w.bytes <+: b ∧
      cur = { buf := b, pos := w.bytes.length } := by
  have hsees : Cursor.Sees { buf := b } b := ⟨le_rfl, Int.natCast_nonneg _, rfl⟩
  constructor
  · intro hdecode
    obtain ⟨⟨opcode, cur₁⟩, hread1, h₁⟩ := bind_eq_ok hdecode
    obtain ⟨⟨count, cur₂⟩, hread2, h₂⟩ := bind_eq_ok h₁
    obtain ⟨⟨ts, cur₃⟩, hmany, hpure⟩ := bind_eq_ok h₂
    obtain ⟨rfl, rfl⟩ := Prod.mk.inj (Except.ok.inj hpure)
    obtain ⟨b, rfl, rfl⟩ := hsees.of_u8 hread1
    have hsees := hsees.advance
    obtain ⟨b, rfl, rfl⟩ := hsees.of_u16 hread2
    obtain ⟨ws, rest, hlen, hall, rfl, rfl, rfl⟩ :=
      readMany_sound (fun _ _ _ _ h => (readTag_iff h).mp) _ _ _ _ _ hsees.advance_toBytes hmany
    have hcount := count.toNat_lt
    refine ⟨⟨opcode, ws⟩, ⟨by simp only; omega, hall⟩, rfl, ⟨rest, ?_⟩, ?_⟩
    · simp [WirePacket.bytes, hlen]
    · rw [WirePacket.length_bytes]
      exact Cursor.advance_header _ _
  · rintro ⟨⟨opcode, ws⟩, ⟨hcount, hall⟩, rfl, ⟨rest, rfl⟩, rfl⟩
    simp only [WirePacket.bytes, List.cons_append, List.append_assoc] at hsees
    obtain ⟨hread1, hsees⟩ := hsees.u8
    obtain ⟨⟨count, hcast, hread2⟩, hsees⟩ := hsees.u16_ofNat hcount
    have hmany : readMany readTag ws.length _ = _ := readMany_bytes (fun w hw cur rest h =>
      (readTag_iff h).mpr ⟨w, rest, forall_of_mem hall hw, rfl, rfl, rfl⟩) hsees
    rw [WirePacket.length_bytes]
    simp only [Packet.decode, bind, Except.bind, WirePacket.bytes, List.cons_append,
      List.append_assoc, hread1, hread2, hcast, hmany, pure, Except.pure, Cursor.advance_header]
    rfl

theorem decodePayload_eq_ok_iff [Qt] {b : QByteArray} {p : Packet} :
    decodePayload b = .ok p ↔ ∃ cur, Packet.decode b = .ok (p, cur) := by
  unfold decodePayload
  constructor
  · intro h
    split at h
    next p' cur heq => exact ⟨cur, by rw [heq, Except.ok.inj h]⟩
    next => exact nomatch h
  · rintro ⟨cur, h⟩
    rw [h]

/-- A payload is accepted exactly if it is a wire form of the packet and what follows. -/
theorem decodePayload_iff [Qt] {b : QByteArray} {p : Packet} :
    decodePayload b = .ok p ↔ ∃ w : WirePacket, w.Fits ∧ w.packet = p ∧ w.bytes <+: b := by
  rw [decodePayload_eq_ok_iff]
  constructor
  · rintro ⟨cur, h⟩
    obtain ⟨w, hfits, hpacket, hbytes, -⟩ := decode_iff.mp h
    exact ⟨w, hfits, hpacket, hbytes⟩
  · rintro ⟨w, hfits, hpacket, hbytes⟩
    exact ⟨_, decode_iff.mpr ⟨w, hfits, hpacket, hbytes, rfl⟩⟩

end Packet

end Amule.Ec
