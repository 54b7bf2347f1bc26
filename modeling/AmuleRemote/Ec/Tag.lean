import AmuleRemote.Ec.Codes

/-!
# EC tags and packets

The data model of `ec/tag.h` and `ec/packet.h`: a tag is a name, a typed value
and a list of children, a packet an opcode and a list of top-level tags.
-/

namespace Amule

/-- `std::array<quint8, 16>`, an MD4 or MD5 digest. -/
abbrev Hash16 := Octets 16

namespace Ec

structure Ipv4 where
  ip : Octets 4
  port : UInt16
deriving DecidableEq

/-- The alternatives of the value variant; each selects its wire type. -/
inductive TagValue
  | empty
  | bytes (data : QByteArray)
  | int (v : UInt64)
  | string (s : QString)
  | hash (h : Hash16)
  | ipv4 (addr : Ipv4)
  | double (d : Double)
deriving DecidableEq

structure Tag where
  name : UInt16
  value : TagValue := .empty
  children : List Tag := []

namespace Tag

mutual

def decEq : (a b : Tag) → Decidable (a = b)
  | ⟨n, v, cs⟩, ⟨n', v', cs'⟩ =>
    match decEqList cs cs' with
    | isTrue hcs =>
      if h : n = n' ∧ v = v' then isTrue (by rw [h.1, h.2, hcs])
      else isFalse fun heq => h (by injection heq with hn hv; exact ⟨hn, hv⟩)
    | isFalse hcs => isFalse fun heq => hcs (by injection heq)

def decEqList : (as bs : List Tag) → Decidable (as = bs)
  | [], [] => isTrue rfl
  | [], _ :: _ => isFalse nofun
  | _ :: _, [] => isFalse nofun
  | a :: as, b :: bs =>
    match decEq a b, decEqList as bs with
    | isTrue h, isTrue hs => isTrue (by rw [h, hs])
    | isFalse h, _ => isFalse fun heq => h (List.cons.inj heq).1
    | _, isFalse hs => isFalse fun heq => hs (List.cons.inj heq).2

end

instance : DecidableEq Tag := decEq

def integer (name : UInt16) (v : UInt64) : Tag := ⟨name, .int v, []⟩
def string (name : UInt16) (s : QString) : Tag := ⟨name, .string s, []⟩
def empty (name : UInt16) : Tag := ⟨name, .empty, []⟩
def hash (name : UInt16) (h : Hash16) : Tag := ⟨name, .hash h, []⟩

def withChildren (t : Tag) (kids : List Tag) : Tag := { t with children := kids }

/-- First direct child with the given name. -/
def child (t : Tag) (childName : UInt16) : Option Tag :=
  t.children.find? (·.name = childName)

def asInt (t : Tag) : Option UInt64 :=
  match t.value with
  | .int v => some v
  | _ => none

def asString (t : Tag) : Option QString :=
  match t.value with
  | .string s => some s
  | _ => none

def asHash (t : Tag) : Option Hash16 :=
  match t.value with
  | .hash h => some h
  | _ => none

def childInt (t : Tag) (childName : UInt16) : Option UInt64 := (t.child childName).bind asInt

def childString (t : Tag) (childName : UInt16) : Option QString :=
  (t.child childName).bind asString

mutual

/-- `P` holds at every node of a tag tree. -/
def Forall (P : UInt16 → TagValue → List Tag → Prop) : Tag → Prop
  | ⟨n, v, cs⟩ => P n v cs ∧ ForallList P cs

/-- `P` holds at every node of every tree of a list. -/
def ForallList (P : UInt16 → TagValue → List Tag → Prop) : List Tag → Prop
  | [] => True
  | t :: ts => Forall P t ∧ ForallList P ts

end

mutual

theorem Forall.imp {P Q : UInt16 → TagValue → List Tag → Prop}
    (hPQ : ∀ n v cs, P n v cs → Q n v cs) : (t : Tag) → t.Forall P → t.Forall Q
  | ⟨n, v, cs⟩, h => ⟨hPQ n v cs h.1, ForallList.imp hPQ cs h.2⟩

theorem ForallList.imp {P Q : UInt16 → TagValue → List Tag → Prop}
    (hPQ : ∀ n v cs, P n v cs → Q n v cs) : (ts : List Tag) → ForallList P ts → ForallList Q ts
  | [], _ => trivial
  | t :: ts, h => ⟨Forall.imp hPQ t h.1, ForallList.imp hPQ ts h.2⟩

end

theorem forall_of_mem {P : UInt16 → TagValue → List Tag → Prop} {ts : List Tag}
    (h : ForallList P ts) {t : Tag} (ht : t ∈ ts) : Forall P t := by
  induction ts with
  | nil => exact absurd ht List.not_mem_nil
  | cons c cs ih =>
    rcases List.mem_cons.mp ht with rfl | ht
    · exact h.1
    · exact ih h.2 ht

end Tag

structure Packet where
  opcode : UInt8
  tags : List Tag := []
deriving DecidableEq

namespace Packet

/-- First top-level tag with the given name. -/
def tag (p : Packet) (name : UInt16) : Option Tag := p.tags.find? (·.name = name)

def tagInt (p : Packet) (name : UInt16) : Option UInt64 := (p.tag name).bind Tag.asInt

def tagString (p : Packet) (name : UInt16) : Option QString := (p.tag name).bind Tag.asString

end Packet

end Ec

end Amule
