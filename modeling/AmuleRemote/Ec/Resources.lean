import AmuleRemote.Ec.Wire
import AmuleRemote.Lib.Logged

/-!
# What decoding takes

The decoder with a log: every `take`, with the position it starts from, the bytes
it asks for and the position it leaves, and every wire name whose flag announces
children. Here the recursion is that of the source, cut off at a depth, so that
a decoder that never came back would have no result at any depth.

A tag is at least seven bytes and two more for a subtag count, however many
children that count announces. So the bytes that remain bound the depth, and the
size of the payload bounds the number of tags.
-/

namespace Amule.Ec

inductive Act
  /-- `take` called at `pos` for `n` bytes, which leaves the cursor at `after`. -/
  | take (pos n after : ℤ)
  | flagged
deriving DecidableEq

abbrev Traced (α : Type) : Type := Logged Act DecodeError α

namespace Cursor

def takeTraced (cur : Cursor) (n : ℤ) : Traced (QByteArray × Cursor) :=
  let after := match cur.take n with
    | .ok (_, cur') => cur'.pos
    | .error _ => cur.pos
  .act (.take cur.pos n after) (cur.take n)

def u8Traced (cur : Cursor) : Traced (UInt8 × Cursor) := do
  let (s, cur) ← cur.takeTraced 1
  pure (.ofNat (BigEndian.ofBytes s), cur)

def u16Traced (cur : Cursor) : Traced (UInt16 × Cursor) := do
  let (s, cur) ← cur.takeTraced 2
  pure (.ofNat (BigEndian.ofBytes s), cur)

def u32Traced (cur : Cursor) : Traced (UInt32 × Cursor) := do
  let (s, cur) ← cur.takeTraced 4
  pure (.ofNat (BigEndian.ofBytes s), cur)

end Cursor

def readManyTraced {α : Type} (read : Cursor → Traced (α × Cursor)) :
    (count : ℕ) → Cursor → Traced (List α × Cursor)
  | 0, cur => pure ([], cur)
  | count + 1, cur => do
    let (a, cur) ← read cur
    let (as, cur) ← readManyTraced read count cur
    pure (a :: as, cur)

def readChildrenTraced (read : Cursor → Traced (Tag × Cursor)) (hasChildren : Bool)
    (cur : Cursor) : Traced (List Tag × ℤ × Cursor) :=
  if hasChildren then do
    Logged.act .flagged (.ok ())
    let (count, cur) ← cur.u16Traced
    let bodyStart := cur.pos
    let (children, cur) ← readManyTraced read count.toNat cur
    pure (children, bodyStart, cur)
  else pure ([], cur.pos, cur)

def readDataTraced (len bodyStart : ℤ) (cur : Cursor) : Traced (QByteArray × Cursor) :=
  let childrenBytes := cur.pos - bodyStart
  if len < childrenBytes then Logged.fail ⟨.lit "EC tag length underflow"⟩
  else cur.takeTraced (len - childrenBytes)

section

variable [Qt]

def readTagTraced : (depth : ℕ) → Cursor → Traced (Tag × Cursor)
  | 0, _ => Logged.tooDeep
  | depth + 1, cur => do
    let (nameWire, cur) ← cur.u16Traced
    let (type, cur) ← cur.u8Traced
    let (len, cur) ← cur.u32Traced
    let (children, bodyStart, cur) ←
      readChildrenTraced (readTagTraced depth) (nameWire &&& 1 ≠ 0) cur
    let (data, cur) ← readDataTraced len.toNat bodyStart cur
    pure (⟨nameWire >>> 1, decodeValue type data, children⟩, cur)

def Packet.decodeTraced (depth : ℕ) (payload : QByteArray) : Traced (Packet × Cursor) := do
  let cur : Cursor := { buf := payload }
  let (opcode, cur) ← cur.u8Traced
  let (count, cur) ← cur.u16Traced
  let (tags, cur) ← readManyTraced (readTagTraced depth) count.toNat cur
  pure (⟨opcode, tags⟩, cur)

end

namespace Tag

mutual

def nodes : Tag → ℕ
  | ⟨_, _, children⟩ => 1 + nodesList children

def nodesList : List Tag → ℕ
  | [] => 0
  | t :: ts => nodes t + nodesList ts

end

end Tag

/-- The position never leaves the buffer, and no `take` asks for a negative number of bytes. -/
def Act.Within (size : ℕ) : Act → Prop
  | .take pos n after => 0 ≤ pos ∧ pos ≤ size ∧ 0 ≤ n ∧ 0 ≤ after ∧ after ≤ size
  | .flagged => True

/-- A position inside a buffer of `size` bytes. -/
structure Cursor.Inside (cur : Cursor) (size : ℕ) : Prop where
  buf : cur.buf.length = size
  nonneg : 0 ≤ cur.pos
  le : cur.pos ≤ size

/-- From `cur` to `cur'` there are the bytes that `cost` and the flags of the log account for. -/
structure Paid (size : ℕ) (cur cur' : Cursor) (cost : ℕ) (log : List Act) : Prop where
  inside : cur'.Inside size
  moved : cur.pos + cost + 2 * log.count .flagged ≤ cur'.pos

theorem Paid.append {size : ℕ} {cur₀ cur₁ cur₂ : Cursor} {m n : ℕ} {log log' : List Act}
    (h : Paid size cur₀ cur₁ m log) (h' : Paid size cur₁ cur₂ n log') :
    Paid size cur₀ cur₂ (m + n) (log ++ log') := by
  refine ⟨h'.inside, ?_⟩
  have hm := h.moved
  have hn := h'.moved
  rw [List.count_append]
  push_cast
  omega

section

variable {size : ℕ} {cur : Cursor}

theorem takeTraced_runs (h : cur.Inside size) {n : ℕ} :
    Logged.Runs (Act.Within size) (cur.takeTraced n) (cur.take n)
      fun a log => Paid size cur a.2 n log := by
  obtain ⟨hbuf, hnonneg, hle⟩ := h
  unfold Cursor.takeTraced
  by_cases hshort : cur.remaining < n
  · have htake : cur.take n = .error ⟨.lit "EC payload truncated"⟩ := if_pos hshort
    rw [htake]
    exact .act ⟨hnonneg, hle, by omega, hnonneg, hle⟩ fun a ha => by simp at ha
  · have htake : cur.take n = .ok (_, { cur with pos := cur.pos + n }) := if_neg hshort
    rw [Cursor.remaining] at hshort
    rw [htake]
    refine .act ⟨hnonneg, hle, by omega, ?_, ?_⟩ fun a ha => ?_
    · simp only
      omega
    · simp only
      omega
    · cases ha
      refine ⟨⟨hbuf, ?_, ?_⟩, ?_⟩
      · simp only
        omega
      · simp only
        omega
      · simp

theorem u8Traced_runs (h : cur.Inside size) :
    Logged.Runs (Act.Within size) cur.u8Traced cur.u8 fun a log => Paid size cur a.2 1 log := by
  refine (takeTraced_runs (n := 1) h).bind ?_
  rintro ⟨s, cur'⟩ log hpaid
  exact .pure (by simpa using hpaid)

theorem u16Traced_runs (h : cur.Inside size) :
    Logged.Runs (Act.Within size) cur.u16Traced cur.u16 fun a log => Paid size cur a.2 2 log := by
  refine (takeTraced_runs (n := 2) h).bind ?_
  rintro ⟨s, cur'⟩ log hpaid
  exact .pure (by simpa using hpaid)

theorem u32Traced_runs (h : cur.Inside size) :
    Logged.Runs (Act.Within size) cur.u32Traced cur.u32 fun a log => Paid size cur a.2 4 log := by
  refine (takeTraced_runs (n := 4) h).bind ?_
  rintro ⟨s, cur'⟩ log hpaid
  exact .pure (by simpa using hpaid)

/-- The reads of a list cost what its tags cost, from every cursor where a tag can be read. -/
theorem readManyTraced_runs {read : Cursor → Except DecodeError (Tag × Cursor)}
    {readTraced : Cursor → Traced (Tag × Cursor)} (start : ℤ)
    (hread : ∀ cur : Cursor, cur.Inside size → start ≤ cur.pos →
      Logged.Runs (Act.Within size) (readTraced cur) (read cur)
        fun a log => Paid size cur a.2 (7 * a.1.nodes) log)
    (count : ℕ) {cur : Cursor} (h : cur.Inside size) (hstart : start ≤ cur.pos) :
    Logged.Runs (Act.Within size) (readManyTraced readTraced count cur) (readMany read count cur)
      fun a log => Paid size cur a.2 (7 * Tag.nodesList a.1) log := by
  induction count generalizing cur with
  | zero => exact .pure ⟨h, by simp [Tag.nodesList]⟩
  | succ count ih =>
    refine (hread cur h hstart).bind ?_
    rintro ⟨t, cur₁⟩ log₁ hone
    have hmoved := hone.moved
    refine (ih hone.inside (by omega)).bind ?_
    rintro ⟨ts, cur₂⟩ log₂ hrest
    have hall := hone.append hrest
    refine .pure ?_
    simpa only [Tag.nodesList, Nat.mul_add, List.append_nil] using hall

theorem readChildrenTraced_runs {read : Cursor → Except DecodeError (Tag × Cursor)}
    {readTraced : Cursor → Traced (Tag × Cursor)}
    (hread : ∀ cur' : Cursor, cur'.Inside size → cur.pos ≤ cur'.pos →
      Logged.Runs (Act.Within size) (readTraced cur') (read cur')
        fun a log => Paid size cur' a.2 (7 * a.1.nodes) log)
    (hasChildren : Bool) (h : cur.Inside size) :
    Logged.Runs (Act.Within size) (readChildrenTraced readTraced hasChildren cur)
      (readChildren read hasChildren cur)
      fun a log => Paid size cur a.2.2 (7 * Tag.nodesList a.1) log := by
  cases hasChildren with
  | false => exact .pure ⟨h, by simp [Tag.nodesList]⟩
  | true =>
    -- the two bytes of the count pay for the flag
    have hflag : Logged.Runs (Act.Within size) (Logged.act .flagged (.ok ()) : Traced Unit)
        (.ok ()) fun _ log => log = [Act.flagged] := .act trivial fun _ _ => rfl
    refine hflag.bind (g := fun _ => readChildren read true cur) ?_
    rintro - log rfl
    refine (u16Traced_runs h).bind ?_
    rintro ⟨count, cur₁⟩ log₁ hcount
    have hmoved := hcount.moved
    refine (readManyTraced_runs cur.pos hread count.toNat hcount.inside (by omega)).bind ?_
    rintro ⟨ts, cur₂⟩ log₂ hmany
    refine .pure ⟨hmany.inside, ?_⟩
    have hall := (hcount.append hmany).moved
    simp only [List.append_nil, List.singleton_append, List.count_cons_self]
    push_cast at hall ⊢
    omega

theorem readDataTraced_runs (len bodyStart : ℤ) (h : cur.Inside size) :
    Logged.Runs (Act.Within size) (readDataTraced len bodyStart cur) (readData len bodyStart cur)
      fun a log => Paid size cur a.2 0 log := by
  unfold readDataTraced readData
  by_cases hunder : len < cur.pos - bodyStart
  · simp only [if_pos hunder]
    exact .fail
  · simp only [if_neg hunder]
    obtain ⟨n, hn⟩ := Int.eq_ofNat_of_zero_le (Int.sub_nonneg_of_le (not_lt.mp hunder))
    rw [hn]
    refine (takeTraced_runs h).mono fun a log hpaid => ⟨hpaid.inside, ?_⟩
    have hmoved := hpaid.moved
    omega

end

section

variable [Qt] {size : ℕ}

omit [Qt] in
theorem u16_of_remaining {cur : Cursor} (h : cur.remaining < 2) :
    cur.u16 = .error ⟨.lit "EC payload truncated"⟩ := by
  have htake : cur.take 2 = .error ⟨.lit "EC payload truncated"⟩ := if_pos h
  rw [Cursor.u16, htake]
  rfl

/-- With no bytes left the bound is not needed: the first two bytes are missed. -/
theorem exists_readTagAux_succ {cur : Cursor} (h : cur.Inside size) {bound : ℕ}
    (hbound : size - cur.pos ≤ bound) : ∃ bound' : ℕ, size - cur.pos ≤ bound' + 1 ∧
      readTagAux bound cur = readTagAux (bound' + 1) cur := by
  cases bound with
  | succ bound => exact ⟨bound, by exact_mod_cast hbound, rfl⟩
  | zero =>
    have hshort : cur.remaining < 2 := by
      rw [Cursor.remaining, h.buf]
      omega
    refine ⟨0, by omega, ?_⟩
    rw [readTagAux, readTagAux, u16_of_remaining hshort]
    rfl

/-- A tag is read as deep as there are bytes left, and pays for all its nodes. -/
theorem readTagTraced_runs (depth : ℕ) : ∀ (bound : ℕ) (cur : Cursor), cur.Inside size →
    size - cur.pos < depth → size - cur.pos ≤ bound →
    Logged.Runs (Act.Within size) (readTagTraced depth cur) (readTagAux bound cur)
      fun a log => Paid size cur a.2 (7 * a.1.nodes) log := by
  induction depth with
  | zero =>
    intro bound cur h hdepth
    have hle := h.le
    omega
  | succ depth ih =>
    intro bound cur h hdepth hbound
    obtain ⟨bound, hbound, haux⟩ := exists_readTagAux_succ h hbound
    rw [haux]
    refine (u16Traced_runs h).bind ?_
    rintro ⟨nameWire, cur₁⟩ log₁ hname
    refine (u8Traced_runs hname.inside).bind ?_
    rintro ⟨type, cur₂⟩ log₂ htype
    refine (u32Traced_runs htype.inside).bind ?_
    rintro ⟨len, cur₃⟩ log₃ hlen
    have hheader := (hname.append htype).append hlen
    have hseven := hheader.moved
    refine (readChildrenTraced_runs (fun cur' hin hle => ih bound cur' hin (by omega) (by omega))
      _ hlen.inside).bind ?_
    rintro ⟨children, bodyStart, cur₄⟩ log₄ hchildren
    refine (readDataTraced_runs len.toNat bodyStart hchildren.inside).bind ?_
    rintro ⟨data, cur₅⟩ log₅ hdata
    have hall := (hheader.append hchildren).append hdata
    refine .pure ⟨hall.inside, ?_⟩
    have hmoved := hall.moved
    simp only [Tag.nodes, List.append_nil, List.append_assoc] at hmoved ⊢
    push_cast at hmoved ⊢
    omega

/-- Decoding comes back with the plain decoder's result, at every depth from the payload's size on.
    All the way the cursor stays in the payload and no `take` asks for a negative number of bytes,
    and an accepted payload has at least seven bytes for each tag, two more for each that announced
    children, and three for the packet. -/
theorem Packet.decodeTraced_bounded (b : QByteArray) (n : ℕ) :
    let run := Packet.decodeTraced (b.length + n) b
    run.result = some (Packet.decode b) ∧ (∀ act ∈ run.log, act.Within b.length) ∧
      ∀ p, Packet.decodePayload b = .ok p →
        3 + 7 * Tag.nodesList p.tags + 2 * run.log.count .flagged ≤ b.length := by
  have hstart : Cursor.Inside { buf := b } b.length := ⟨rfl, le_rfl, Int.natCast_nonneg _⟩
  have hruns : Logged.Runs (Act.Within b.length) (Packet.decodeTraced (b.length + n) b)
      (Packet.decode b)
      fun a log => Paid b.length { buf := b } a.2 (3 + 7 * Tag.nodesList a.1.tags) log := by
    refine (u8Traced_runs hstart).bind ?_
    rintro ⟨opcode, cur₁⟩ log₁ hopcode
    refine (u16Traced_runs hopcode.inside).bind ?_
    rintro ⟨count, cur₂⟩ log₂ hcount
    have hheader := hopcode.append hcount
    have hthree := hheader.moved
    refine (readManyTraced_runs cur₂.pos (fun cur hin hle => ?_) count.toNat
      hcount.inside le_rfl).bind ?_
    · have hinside := hin.le
      have hbuf := hin.buf
      exact readTagTraced_runs _ _ cur hin (by simp only at hthree; omega)
        (by rw [Cursor.remaining]; omega)
    · rintro ⟨ts, cur₃⟩ log₃ hmany
      refine .pure ?_
      simpa only [List.append_nil, List.append_assoc] using hheader.append hmany
  refine ⟨hruns.result, hruns.log, fun p hp => ?_⟩
  obtain ⟨cur, hdecode⟩ := Packet.decodePayload_eq_ok_iff.mp hp
  have hpaid := hruns.returns _ hdecode
  have hmoved := hpaid.moved
  have hle := hpaid.inside.le
  simp only at hmoved hle
  omega

end

/-- A tag with one child, whose payload has no byte to spare. -/
def nestedPayload : QByteArray :=
  [Op.noop, 0, 1, 0, 1, TagType.custom, 0, 0, 0, 7, 0, 1, 0, 0, TagType.custom, 0, 0, 0, 0]

theorem Packet.decodeTraced_bounded_nested :
    letI := sampleQt
    3 + 7 * 2 + 2 * (Packet.decodeTraced 19 nestedPayload).log.count .flagged ≤ 19 :=
  letI := sampleQt
  (Packet.decodeTraced_bounded nestedPayload 0).2.2
    ⟨Op.noop, [⟨0, .empty, [Tag.empty 0]⟩]⟩ (by decide)

end Amule.Ec
