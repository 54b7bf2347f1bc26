import AmuleRemote.Lib.BigEndian
import AmuleRemote.Ec.Tag

/-!
# EC packet and tag (de)serialization

The functions of `ec/codec.cpp`. The wire form of a tag is

    u16 name << 1 | hasChildren, u8 type, u32 length,
    [u16 subtag count, children], data

all big-endian, where `length` covers the data and the serialized children but
not the tag's own subtag count, which is charged to the parent.

A byte buffer the source appends to in place is an argument and a result here.
The decoder's recursion is bounded by the bytes that remain: with none left the
first `take` of a tag fails, so a bound of zero gives that failure outright.
-/

namespace Amule.Ec

variable [Qt]

def appendBE (out : QByteArray) (w : ℕ) (v : ℕ) : QByteArray := out ++ BigEndian.toBytes w v

/-- An integer's smallest fitting wire type and its big-endian bytes. -/
def encodeInt (v : UInt64) : UInt8 × QByteArray :=
  if v.toNat ≤ 0xFF then (TagType.uint8, [v.toUInt8])
  else if v.toNat ≤ 0xFFFF then (TagType.uint16, appendBE [] 2 v.toUInt16.toNat)
  else if v.toNat ≤ 0xFFFFFFFF then (TagType.uint32, appendBE [] 4 v.toUInt32.toNat)
  else (TagType.uint64, appendBE [] 8 v.toNat)

/-- Type byte and data bytes of a value, children excluded. -/
def encodeValue : TagValue → UInt8 × QByteArray
  | .empty => (TagType.custom, [])
  | .bytes b => (TagType.custom, b)
  | .int i => encodeInt i
  | .string s => (TagType.string, Qt.toUtf8 s ++ [0])
  | .hash h => (TagType.hash16, h.val)
  | .ipv4 a => (TagType.ipv4, appendBE a.ip.val 2 a.port.toNat)
  | .double d => (TagType.double, Qt.numberDouble d ++ [0])

mutual

/-- The `length` field of a tag: its data and its serialized children. -/
def tagLen : Tag → UInt32
  | ⟨_, value, children⟩ => tagLenLoop (.ofNat (encodeValue value).2.length) children

def tagLenLoop (n : UInt32) : List Tag → UInt32
  | [] => n
  | c :: cs => tagLenLoop (n + 7 + (if c.children.isEmpty then 0 else 2) + tagLen c) cs

end

mutual

def writeTag (out : QByteArray) : Tag → QByteArray
  | ⟨name, value, children⟩ =>
    let hasChildren := !children.isEmpty
    let nameWire : UInt16 := (name <<< 1) ||| (if hasChildren then 1 else 0)
    let out := appendBE out 2 nameWire.toNat
    let out := out ++ [(encodeValue value).1]
    let out := appendBE out 4 (tagLen ⟨name, value, children⟩).toNat
    let out :=
      if hasChildren then
        writeTags (appendBE out 2 (UInt16.ofNat children.length).toNat) children
      else out
    out ++ (encodeValue value).2

def writeTags (out : QByteArray) : List Tag → QByteArray
  | [] => out
  | c :: cs => writeTags (writeTag out c) cs

end

mutual

/-- The bytes `writeTag` appends, laid out field by field. -/
def tagBytes : Tag → QByteArray
  | ⟨name, value, children⟩ =>
    BigEndian.toBytes 2 ((name <<< 1) ||| (if children.isEmpty then 0 else 1)).toNat ++
      ([(encodeValue value).1] ++
        (BigEndian.toBytes 4 (tagLen ⟨name, value, children⟩).toNat ++
          ((if children.isEmpty then []
            else BigEndian.toBytes 2 (UInt16.ofNat children.length).toNat ++
              tagsBytes children) ++ (encodeValue value).2)))

def tagsBytes : List Tag → QByteArray
  | [] => []
  | c :: cs => tagBytes c ++ tagsBytes cs

end

mutual

theorem writeTag_eq (out : QByteArray) : (t : Tag) → writeTag out t = out ++ tagBytes t
  | ⟨name, value, children⟩ => by
    cases children with
    | nil => simp [writeTag, tagBytes, appendBE]
    | cons c cs => simp [writeTag, tagBytes, appendBE, writeTags_eq _ (c :: cs)]

theorem writeTags_eq (out : QByteArray) : (ts : List Tag) → writeTags out ts = out ++ tagsBytes ts
  | [] => by simp [writeTags, tagsBytes]
  | c :: cs => by
    rw [writeTags, writeTags_eq _ cs, writeTag_eq out c, tagsBytes, List.append_assoc]

end

mutual

/-- What `tagLen` counts, before it is reduced to 32 bits. -/
def bodyLen : Tag → ℕ
  | ⟨_, value, children⟩ => (encodeValue value).2.length + wireLens children

/-- What a list of tags takes on the wire: a header each, a subtag count where
    there are children, and the body. -/
def wireLens : List Tag → ℕ
  | [] => 0
  | c :: cs => 7 + (if c.children.isEmpty then 0 else 2) + bodyLen c + wireLens cs

end

def wireLen (t : Tag) : ℕ := 7 + (if t.children.isEmpty then 0 else 2) + bodyLen t

mutual

theorem length_tagBytes : (t : Tag) → (tagBytes t).length = wireLen t
  | ⟨name, value, children⟩ => by
    cases children with
    | nil =>
      simp only [tagBytes, wireLen, bodyLen, wireLens, List.isEmpty_nil, if_true,
        List.length_append, BigEndian.length_toBytes, List.length_cons, List.length_nil]
      omega
    | cons c cs =>
      have h := length_tagsBytes (c :: cs)
      simp only [tagBytes, wireLen, bodyLen, List.isEmpty_cons, Bool.false_eq_true, if_false,
        List.length_append, BigEndian.length_toBytes, List.length_cons, List.length_nil, h]
      omega

theorem length_tagsBytes : (ts : List Tag) → (tagsBytes ts).length = wireLens ts
  | [] => by simp [tagsBytes, wireLens]
  | c :: cs => by
    rw [tagsBytes, List.length_append, length_tagBytes c, length_tagsBytes cs]
    rfl

end

mutual

theorem toNat_tagLen : (t : Tag) → (tagLen t).toNat = bodyLen t % 2 ^ 32
  | ⟨name, value, children⟩ => by
    rw [tagLen, toNat_tagLenLoop _ children, bodyLen, UInt32.toNat_ofNat']
    omega

theorem toNat_tagLenLoop (n : UInt32) :
    (ts : List Tag) → (tagLenLoop n ts).toNat = (n.toNat + wireLens ts) % 2 ^ 32
  | [] => by
    have := n.toNat_lt
    rw [tagLenLoop, wireLens]
    omega
  | c :: cs => by
    have hc := toNat_tagLen c
    rw [tagLenLoop, toNat_tagLenLoop _ cs, wireLens]
    cases hk : c.children.isEmpty <;>
      simp only [UInt32.toNat_add, hc, Bool.false_eq_true, if_true, if_false,
        UInt32.reduceToNat] <;> omega

end

namespace Packet

def payload (p : Packet) : QByteArray :=
  writeTags (appendBE [p.opcode] 2 (UInt16.ofNat p.tags.length).toNat) p.tags

/-- The whole frame: the 8-byte header and the payload. -/
def encode (p : Packet) : QByteArray :=
  let frame := appendBE [] 4 Flag.base.toNat
  let frame := appendBE frame 4 (UInt32.ofNat p.payload.length).toNat
  frame ++ p.payload

end Packet

structure DecodeError where
  message : QString
deriving DecidableEq

/-- A read position in a buffer; `qsizetype` values are integers. -/
structure Cursor where
  buf : QByteArray
  pos : ℤ := 0
deriving DecidableEq

namespace Cursor

def remaining (cur : Cursor) : ℤ := cur.buf.length - cur.pos

def take (cur : Cursor) (n : ℤ) : Except DecodeError (QByteArray × Cursor) :=
  if cur.remaining < n then throw ⟨.lit "EC payload truncated"⟩
  else pure ((cur.buf.drop cur.pos.toNat).take n.toNat, { cur with pos := cur.pos + n })

def u8 (cur : Cursor) : Except DecodeError (UInt8 × Cursor) := do
  let (s, cur) ← cur.take 1
  pure (.ofNat (BigEndian.ofBytes s), cur)

def u16 (cur : Cursor) : Except DecodeError (UInt16 × Cursor) := do
  let (s, cur) ← cur.take 2
  pure (.ofNat (BigEndian.ofBytes s), cur)

def u32 (cur : Cursor) : Except DecodeError (UInt32 × Cursor) := do
  let (s, cur) ← cur.take 4
  pure (.ofNat (BigEndian.ofBytes s), cur)

end Cursor

/-- The bytes before the first zero, all of them if there is none. -/
def beforeZero (data : QByteArray) : QByteArray := data.takeWhile (· ≠ 0)

/-- A big-endian number whose low-order bytes may be missing. -/
def paddedInt (w : ℕ) (data : QByteArray) : UInt64 :=
  .ofNat (BigEndian.ofBytes (Octets.copyOf w data).val)

def decodeValue (type : UInt8) (data : QByteArray) : TagValue :=
  if type = TagType.custom then
    if data.isEmpty then .empty else .bytes data
  else if type = TagType.uint8 then .int (paddedInt 1 data)
  else if type = TagType.uint16 then .int (paddedInt 2 data)
  else if type = TagType.uint32 then .int (paddedInt 4 data)
  else if type = TagType.uint64 then .int (paddedInt 8 data)
  else if type = TagType.string then .string (Qt.fromUtf8 (beforeZero data))
  else if type = TagType.hash16 then .hash (Octets.copyOf 16 data)
  else if type = TagType.ipv4 then
    let port : UInt16 :=
      if 6 ≤ data.length then .ofNat (BigEndian.ofBytes ((data.drop 4).take 2)) else 0
    .ipv4 ⟨Octets.copyOf 4 data, port⟩
  else if type = TagType.double then
    .double (Qt.toDouble (QByteArray.trimmed (beforeZero data)))
  else .bytes data

section decodeValue

variable (data : QByteArray)

@[simp] theorem decodeValue_custom :
    decodeValue TagType.custom data = if data.isEmpty then .empty else .bytes data := rfl

@[simp] theorem decodeValue_uint8 :
    decodeValue TagType.uint8 data = .int (paddedInt 1 data) := rfl

@[simp] theorem decodeValue_uint16 :
    decodeValue TagType.uint16 data = .int (paddedInt 2 data) := rfl

@[simp] theorem decodeValue_uint32 :
    decodeValue TagType.uint32 data = .int (paddedInt 4 data) := rfl

@[simp] theorem decodeValue_uint64 :
    decodeValue TagType.uint64 data = .int (paddedInt 8 data) := rfl

@[simp] theorem decodeValue_string :
    decodeValue TagType.string data = .string (Qt.fromUtf8 (beforeZero data)) := rfl

@[simp] theorem decodeValue_hash16 :
    decodeValue TagType.hash16 data = .hash (Octets.copyOf 16 data) := rfl

@[simp] theorem decodeValue_ipv4 :
    decodeValue TagType.ipv4 data =
      .ipv4 ⟨Octets.copyOf 4 data,
        if 6 ≤ data.length then .ofNat (BigEndian.ofBytes ((data.drop 4).take 2)) else 0⟩ := rfl

end decodeValue

/-- `count` reads one after the other. -/
def readMany {α : Type} (read : Cursor → Except DecodeError (α × Cursor)) :
    (count : ℕ) → Cursor → Except DecodeError (List α × Cursor)
  | 0, cur => pure ([], cur)
  | count + 1, cur => do
    let (a, cur) ← read cur
    let (as, cur) ← readMany read count cur
    pure (a :: as, cur)

/-- The children of a tag and the position they start at: the subtag count is
    charged to the parent, so children are counted after it. -/
def readChildren (read : Cursor → Except DecodeError (Tag × Cursor)) (hasChildren : Bool)
    (cur : Cursor) : Except DecodeError (List Tag × ℤ × Cursor) :=
  if hasChildren then do
    let (count, cur) ← cur.u16
    let bodyStart := cur.pos
    let (children, cur) ← readMany read count.toNat cur
    pure (children, bodyStart, cur)
  else pure ([], cur.pos, cur)

/-- What the declared length leaves for the data, after the children. -/
def readData (len bodyStart : ℤ) (cur : Cursor) : Except DecodeError (QByteArray × Cursor) :=
  let childrenBytes := cur.pos - bodyStart
  if len < childrenBytes then throw ⟨.lit "EC tag length underflow"⟩
  else cur.take (len - childrenBytes)

/-- `readTag`, with a bound on the bytes that remain at the cursor. -/
def readTagAux : (bound : ℕ) → Cursor → Except DecodeError (Tag × Cursor)
  | 0, _ => throw ⟨.lit "EC payload truncated"⟩
  | bound + 1, cur => do
    let (nameWire, cur) ← cur.u16
    let (type, cur) ← cur.u8
    let (len, cur) ← cur.u32
    let (children, bodyStart, cur) ← readChildren (readTagAux bound) (nameWire &&& 1 ≠ 0) cur
    let (data, cur) ← readData len.toNat bodyStart cur
    pure (⟨nameWire >>> 1, decodeValue type data, children⟩, cur)

def readTag (cur : Cursor) : Except DecodeError (Tag × Cursor) :=
  readTagAux cur.remaining.toNat cur

/-- The decoder's run over a payload, with the cursor it ends at. -/
def Packet.decode (payload : QByteArray) : Except DecodeError (Packet × Cursor) := do
  let cur : Cursor := { buf := payload }
  let (opcode, cur) ← cur.u8
  let (count, cur) ← cur.u16
  let (tags, cur) ← readMany readTag count.toNat cur
  pure (⟨opcode, tags⟩, cur)

/-- Bytes after the last tag are ignored. -/
def Packet.decodePayload (payload : QByteArray) : Except QString Packet :=
  match Packet.decode payload with
  | .ok (p, _) => .ok p
  | .error e => .error e.message

end Amule.Ec
