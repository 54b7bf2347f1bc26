import AmuleRemote.Lib.Utf8
import Mathlib.Data.List.DropRight
import Mathlib.Data.List.Induction
import Mathlib.Data.Nat.Digits.Defs
import Mathlib.Data.Nat.Log

/-!
# The Qt types the program computes with

`QString` is a list of UTF-16 code units and `QByteArray` a list of bytes, as
in Qt. What the program asks of Qt beyond lists (text codecs, MD5, the text
form of a double) is the class `Qt`; the laws a proof relies on are classes of
their own, here `LawfulQtUtf8`.

## Main definitions

- `Octets n` — `std::array<quint8, n>`
- `Double` — an IEEE double, by its bits
- `QString.arg` — place-marker substitution
- `Qt`, `LawfulQtUtf8` — the parameter and its UTF-8 laws
-/

namespace Amule

/-- `quint8` data, as `QByteArray` and `QByteArrayView` hold it. -/
abbrev QByteArray := List UInt8

/-- UTF-16 code units. -/
abbrev QString := List UInt16

/-- `std::array<quint8, n>`. -/
abbrev Octets (n : ℕ) := {bs : List UInt8 // bs.length = n}

namespace Octets

/-- A value-initialised array. -/
def zero (n : ℕ) : Octets n := ⟨List.replicate n 0, List.length_replicate⟩

/-- The first `n` bytes at `data` copied over a zeroed array, as the decoder's
    `memcpy` of `min(size, n)` bytes does. -/
def copyOf (n : ℕ) (data : QByteArray) : Octets n :=
  ⟨data.take n ++ List.replicate (n - data.length) 0, by
    rw [List.length_append, List.length_take, List.length_replicate]
    omega⟩

/-- Copying an array's own bytes gives the array back. -/
@[simp] theorem copyOf_val {n : ℕ} (a : Octets n) : copyOf n a.val = a := by
  apply Subtype.ext
  simp [copyOf, a.property, List.take_of_length_le]

/-- What follows the first `n` bytes is not copied. -/
theorem copyOf_append {n : ℕ} (a : Octets n) (rest : QByteArray) :
    copyOf n (a.val ++ rest) = a := by
  apply Subtype.ext
  simp [copyOf, a.property]

end Octets

/-- An IEEE 754 double, by its bits. -/
structure Double where
  bits : UInt64 := 0
deriving DecidableEq, Inhabited

namespace Double

def isNaN (d : Double) : Bool := 0x7FF0000000000000 < d.bits.toNat % 2 ^ 63

/-- The bits read as sign and magnitude: an order embedding away from NaN. -/
def key (d : Double) : ℤ :=
  if d.bits.toNat < 2 ^ 63 then (d.bits.toNat : ℤ) else -((d.bits.toNat : ℤ) - 2 ^ 63)

/-- `a > b`, false as soon as one of them is NaN. -/
def gt (a b : Double) : Bool := !a.isNaN && !b.isNaN && decide (b.key < a.key)

/-- `static_cast<double>` of an unsigned number, rounding to nearest even. -/
def ofUInt64 (v : UInt64) : Double :=
  if v = 0 then ⟨0⟩
  else
    let e := Nat.log2 v.toNat
    let m :=
      if e ≤ 52 then v.toNat * 2 ^ (52 - e)
      else
        let q := v.toNat / 2 ^ (e - 52)
        let r := v.toNat % 2 ^ (e - 52)
        let half := 2 ^ (e - 53)
        if half < r ∨ (r = half ∧ q % 2 = 1) then q + 1 else q
    -- a mantissa rounded up to 2 ^ 53 carries into the exponent
    ⟨.ofNat ((e + 1023) * 2 ^ 52 + m - 2 ^ 52)⟩

end Double

namespace QString

/-- `QStringLiteral`, for literals inside the basic plane. -/
def lit (s : String) : QString := s.toList.map fun c => .ofNat c.toNat

private def digitUnit (d : ℕ) : UInt16 := .ofNat (if d < 10 then 0x30 + d else 0x57 + d)

/-- `QString::number(v, base)`. -/
def number (v : ℕ) (base : ℕ := 10) : QString :=
  if v = 0 then [0x30] else ((Nat.digits base v).map digitUnit).reverse

/-- Digits padded on the left with `0`. -/
def padded (width : ℕ) (s : QString) : QString :=
  List.replicate (width - s.length) 0x30 ++ s

private def isDigit (c : UInt16) : Bool := 0x30 ≤ c.toNat && c.toNat ≤ 0x39

/-- The place marker a text starts with, `%1` to `%99` or `%L1` to `%L99`: its
    number and how many code units it takes. -/
def marker : QString → Option (ℕ × ℕ)
  | 0x25 :: rest =>
    let skip := if rest.head? = some 0x4C then 1 else 0
    match rest.drop skip with
    | d :: more =>
      if !isDigit d then none
      else
        match more with
        | e :: _ =>
          if isDigit e then some ((d.toNat - 0x30) * 10 + (e.toNat - 0x30), skip + 3)
          else some (d.toNat - 0x30, skip + 2)
        | [] => some (d.toNat - 0x30, skip + 2)
    | [] => none
  | _ => none

/-- The lowest place-marker number in a text. -/
def lowestMarker : QString → Option ℕ
  | [] => none
  | c :: rest =>
    match marker (c :: rest), lowestMarker rest with
    | some (n, _), some m => some (min n m)
    | some (n, _), none => some n
    | none, m => m

/-- Replace every marker with number `n` by `a`; `skip` code units belong to a
    marker that is already replaced. -/
def replaceMarker (n : ℕ) (a : QString) : (skip : ℕ) → QString → QString
  | _, [] => []
  | skip + 1, _ :: rest => replaceMarker n a skip rest
  | 0, c :: rest =>
    match marker (c :: rest) with
    | some (m, len) =>
      if m = n then a ++ replaceMarker n a (len - 1) rest
      else c :: replaceMarker n a 0 rest
    | none => c :: replaceMarker n a 0 rest

/-- `QString::arg`: `a` for the lowest-numbered place marker. -/
def arg (s a : QString) : QString :=
  match lowestMarker s with
  | some n => replaceMarker n a 0 s
  | none => s

/-- `QString::fromLatin1`. -/
def fromLatin1 (bs : QByteArray) : QString := bs.map fun b => .ofNat b.toNat

/-- `QString::toLatin1`: `?` for what is outside Latin-1. -/
def toLatin1 (s : QString) : QByteArray :=
  s.map fun c => if c.toNat < 256 then .ofNat c.toNat else 0x3F

/-- `toUpper` of the hexadecimal digits `QString::number` writes. -/
def upperHex (s : QString) : QString :=
  s.map fun c => if 0x61 ≤ c.toNat && c.toNat ≤ 0x66 then .ofNat (c.toNat - 0x20) else c

/-- `QChar::isSpace`. -/
def isSpace (c : UInt16) : Bool :=
  let n := c.toNat
  (0x09 ≤ n && n ≤ 0x0D) || n = 0x20 || n = 0x85 || n = 0xA0 || n = 0x1680 ||
    (0x2000 ≤ n && n ≤ 0x200A) || n = 0x2028 || n = 0x2029 || n = 0x202F || n = 0x205F ||
    n = 0x3000

/-- `QString::trimmed`. -/
def trimmed (s : QString) : QString := ((s.dropWhile isSpace).reverse.dropWhile isSpace).reverse

/-- The number that a text of decimal digits spells. -/
def digitsValue (s : QString) : Option ℕ :=
  if s ≠ [] ∧ s.all isDigit then
    some (s.foldl (fun n c => 10 * n + (c.toNat - 0x30)) 0)
  else none

/-- `QString::toULongLong`: zero for what is no number or too large. -/
def toULongLong (s : QString) : UInt64 :=
  let s := s.trimmed
  match digitsValue (if s.head? = some 0x2B then s.tail else s) with
  | some n => if n < 2 ^ 64 then .ofNat n else 0
  | none => 0

/-- `QString::toInt`: zero for what is no number or out of range. -/
def toInt (s : QString) : Int32 :=
  let s := s.trimmed
  let negative : Bool := s.head? = some 0x2D
  match digitsValue (if negative ∨ s.head? = some 0x2B then s.tail else s) with
  | some n =>
    let v : ℤ := if negative then -n else n
    if -2 ^ 31 ≤ v ∧ v < 2 ^ 31 then .ofInt v else 0
  | none => 0

/-- `QString::number` of an `int`. -/
def numberInt (v : Int32) : QString :=
  if v.toInt < 0 then 0x2D :: number v.toInt.natAbs else number v.toInt.natAbs

/-- `out.replace(before, after)`. -/
def replaceUnit (s : QString) (before after : UInt16) : QString :=
  s.map fun c => if c = before then after else c

/-- Text that survives a trip through UTF-8 and a zero-terminated buffer:
    well-formed, without U+0000, not starting with a byte-order mark. -/
def Portable (s : QString) : Prop :=
  Utf8.wellFormed s = true ∧ (0 : UInt16) ∉ s ∧ s.head? ≠ some 0xFEFF

instance (s : QString) : Decidable s.Portable := by
  unfold Portable
  infer_instance

/-! ### Trimming -/

theorem trimmed_eq_self_iff {s : QString} :
    s.trimmed = s ↔ (∀ c ∈ s.head?, isSpace c = false) ∧ ∀ c ∈ s.getLast?, isSpace c = false := by
  have hsplit : s.trimmed = (s.dropWhile isSpace).rdropWhile isSpace := rfl
  have hhead : s.dropWhile isSpace = s ↔ ∀ c ∈ s.head?, isSpace c = false := by
    cases s with
    | nil => simp
    | cons c s =>
      rw [List.dropWhile_eq_self_iff]
      simp
  have hlast : s.rdropWhile isSpace = s ↔ ∀ c ∈ s.getLast?, isSpace c = false := by
    cases s using List.reverseRecOn with
    | nil => simp
    | append_singleton s c =>
      rw [List.rdropWhile_eq_self_iff]
      simp
  rw [← hhead, ← hlast, hsplit]
  constructor
  · intro h
    -- nothing can be lost on either side
    have hlead := (List.rdropWhile_prefix isSpace (s.dropWhile isSpace)).length_le
    have hsuffix := List.dropWhile_suffix (l := s) isSpace
    have hfront : s.dropWhile isSpace = s := hsuffix.eq_of_length_le (by rwa [h] at hlead)
    rw [hfront] at h
    exact ⟨hfront, h⟩
  · rintro ⟨hfront, hback⟩
    rw [hfront, hback]

/-- Trimming twice is trimming once. -/
theorem trimmed_trimmed (s : QString) : s.trimmed.trimmed = s.trimmed := by
  have hsplit : s.trimmed = (s.dropWhile isSpace).rdropWhile isSpace := rfl
  refine trimmed_eq_self_iff.mpr ⟨fun c hc => ?_, fun c hc => ?_⟩
  · -- what was trimmed at the end starts as before
    obtain ⟨rest, hrest⟩ := List.rdropWhile_prefix isSpace (s.dropWhile isSpace)
    rw [← hsplit] at hrest
    have hhead : (s.dropWhile isSpace).head? = some c := by
      rw [← hrest, List.head?_append, Option.mem_def.mp hc, Option.some_or]
    simpa [hhead] using List.head?_dropWhile_not isSpace s
  · have hne : s.trimmed ≠ [] := List.ne_nil_of_mem (List.mem_of_getLast? hc)
    have hlast := List.rdropWhile_last_not isSpace (s.dropWhile isSpace) hne
    obtain rfl := Option.some_injective _
      ((List.getLast?_eq_some_getLast hne).symm.trans (Option.mem_def.mp hc))
    exact Bool.eq_false_iff.mpr hlast

/-- White space behind a trimmed text is cut off. -/
theorem trimmed_concat {s : QString} (hne : s ≠ []) (h : s.trimmed = s) {c : UInt16}
    (hc : isSpace c = true) : (s ++ [c]).trimmed = s := by
  obtain ⟨hhead, -⟩ := trimmed_eq_self_iff.mp h
  obtain ⟨a, s, rfl⟩ := List.exists_cons_of_ne_nil hne
  have ha : isSpace a = false := hhead a rfl
  have hfront : (a :: s ++ [c]).dropWhile isSpace = a :: s ++ [c] := by simp [ha]
  have hself : (a :: s).dropWhile isSpace = a :: s := by simp [ha]
  calc trimmed (a :: s ++ [c])
    _ = ((a :: s ++ [c]).dropWhile isSpace).rdropWhile isSpace := rfl
    _ = ((a :: s).dropWhile isSpace).rdropWhile isSpace := by
      rw [hfront, hself, List.rdropWhile_concat_pos _ _ _ hc]
    _ = a :: s := h

/-! ### Numbers -/

private theorem digitUnit_spec : ∀ d < 10, 0x30 ≤ (digitUnit d).toNat ∧
    (digitUnit d).toNat ≤ 0x39 ∧ (digitUnit d).toNat - 0x30 = d := by
  decide

private theorem number_eq (v : ℕ) : ∃ ds : List ℕ, number v = (ds.map digitUnit).reverse ∧
    ds ≠ [] ∧ (∀ d ∈ ds, d < 10) ∧ Nat.ofDigits 10 ds = v := by
  by_cases hv : v = 0
  · exact ⟨[0], by rw [number, if_pos hv]; rfl, by simp, by simp, by simp [hv]⟩
  · refine ⟨Nat.digits 10 v, by rw [number, if_neg hv], ?_, fun d hd => ?_,
      Nat.ofDigits_digits 10 v⟩
    · exact Nat.digits_ne_nil_iff_ne_zero.mpr hv
    · exact Nat.digits_lt_base (by decide) hd

theorem number_ne_nil (v : ℕ) : number v ≠ [] := by
  obtain ⟨ds, hnumber, hne, -⟩ := number_eq v
  rw [hnumber]
  simpa using hne

/-- A number is written in decimal digits. -/
theorem number_digits (v : ℕ) : ∀ c ∈ number v, 0x30 ≤ c.toNat ∧ c.toNat ≤ 0x39 := by
  obtain ⟨ds, hnumber, -, hlt, -⟩ := number_eq v
  intro c hc
  rw [hnumber, List.mem_reverse] at hc
  obtain ⟨d, hd, rfl⟩ := List.mem_map.mp hc
  exact ⟨(digitUnit_spec d (hlt d hd)).1, (digitUnit_spec d (hlt d hd)).2.1⟩

theorem isSpace_digit {c : UInt16} (h : 0x30 ≤ c.toNat ∧ c.toNat ≤ 0x39) : isSpace c = false := by
  have hn : c.toNat ≠ 0x20 ∧ c.toNat ≠ 0x85 ∧ c.toNat ≠ 0xA0 := by omega
  simp only [isSpace, Bool.or_eq_false_iff, Bool.and_eq_false_iff, decide_eq_false_iff_not]
  omega

theorem digitsValue_number (v : ℕ) : digitsValue (number v) = some v := by
  obtain ⟨ds, hnumber, -, hlt, hvalue⟩ := number_eq v
  have hall : (number v).all isDigit = true := List.all_eq_true.mpr fun c hc => by
    obtain ⟨hlo, hhi⟩ := number_digits v c hc
    simp [isDigit, hlo, hhi]
  rw [digitsValue, if_pos ⟨number_ne_nil v, hall⟩, hnumber, ← hvalue]
  refine congrArg some ?_
  clear hnumber hvalue hall
  induction ds with
  | nil => rfl
  | cons d ds ih =>
    obtain ⟨hd, hds⟩ := List.forall_mem_cons.mp hlt
    rw [List.map_cons, List.reverse_cons, List.foldl_concat, ih hds, Nat.ofDigits_cons,
      (digitUnit_spec d hd).2.2]
    omega

/-- No sign and no white space stands before or behind the digits. -/
private theorem number_front (v : ℕ) : (number v).trimmed = number v ∧
    (number v).head? ≠ some 0x2B ∧ (number v).head? ≠ some 0x2D := by
  refine ⟨trimmed_eq_self_iff.mpr ⟨fun c hc => ?_, fun c hc => ?_⟩, fun hc => ?_, fun hc => ?_⟩
  · exact isSpace_digit (number_digits v c (List.mem_of_head? hc))
  · exact isSpace_digit (number_digits v c (List.mem_of_getLast? hc))
  · exact absurd (number_digits v _ (List.mem_of_head? hc)).1 (by decide)
  · exact absurd (number_digits v _ (List.mem_of_head? hc)).1 (by decide)

theorem toULongLong_number (v : UInt64) : toULongLong (number v.toNat) = v := by
  obtain ⟨htrim, hplus, -⟩ := number_front v.toNat
  simp only [toULongLong, htrim, if_neg hplus, digitsValue_number, v.toNat_lt, if_true,
    UInt64.ofNat_toNat]

/-- An `int` is written with digits and a minus sign. -/
theorem numberInt_units (v : Int32) :
    ∀ c ∈ numberInt v, c = 0x2D ∨ 0x30 ≤ c.toNat ∧ c.toNat ≤ 0x39 := by
  intro c hc
  rw [numberInt] at hc
  split at hc
  · cases List.mem_cons.mp hc with
    | inl hminus => exact .inl hminus
    | inr hdigit => exact .inr (number_digits _ c hdigit)
  · exact .inr (number_digits _ c hc)

theorem trimmed_numberInt (v : Int32) : (numberInt v).trimmed = numberInt v := by
  have hspace : ∀ c ∈ numberInt v, isSpace c = false := by
    intro c hc
    rcases numberInt_units v c hc with rfl | hdigit
    · decide
    · exact isSpace_digit hdigit
  exact trimmed_eq_self_iff.mpr
    ⟨fun c hc => hspace c (List.mem_of_head? hc), fun c hc => hspace c (List.mem_of_getLast? hc)⟩

theorem toInt_numberInt (v : Int32) : toInt (numberInt v) = v := by
  have hlo := v.le_toInt
  have hhi := v.toInt_lt
  rw [toInt, trimmed_numberInt]
  by_cases hneg : v.toInt < 0
  · have hvalue : -(v.toInt.natAbs : ℤ) = v.toInt := by omega
    have hrange : -2 ^ 31 ≤ v.toInt ∧ v.toInt < 2 ^ 31 := ⟨by omega, by omega⟩
    rw [numberInt, if_pos hneg]
    simp only [List.head?_cons, decide_true, true_or, if_true, List.tail_cons, digitsValue_number,
      hvalue, if_pos hrange, Int32.ofInt_toInt]
  · have hvalue : (v.toInt.natAbs : ℤ) = v.toInt := by omega
    have hrange : -2 ^ 31 ≤ v.toInt ∧ v.toInt < 2 ^ 31 := ⟨by omega, by omega⟩
    obtain ⟨-, hplus, hminus⟩ := number_front v.toInt.natAbs
    rw [numberInt, if_neg hneg]
    simp only [hminus, hplus, decide_false, Bool.false_eq_true, or_self, if_false,
      digitsValue_number, hvalue, if_pos hrange, Int32.ofInt_toInt]

end QString

namespace QByteArray

/-- `QByteArray::toHex`, lowercase. -/
def toHex (bs : QByteArray) : QByteArray :=
  bs.flatMap fun b => [hexDigit (b.toNat / 16), hexDigit (b.toNat % 16)]
where
  hexDigit (d : ℕ) : UInt8 := .ofNat (if d < 10 then 0x30 + d else 0x57 + d)

private def isSpace (b : UInt8) : Bool := b = 0x20 || (0x09 ≤ b.toNat && b.toNat ≤ 0x0D)

/-- `QByteArray::trimmed`. -/
def trimmed (bs : QByteArray) : QByteArray :=
  ((bs.dropWhile isSpace).reverse.dropWhile isSpace).reverse

end QByteArray

/-- What the program uses of Qt and leaves to Qt. -/
class Qt where
  /-- `QString::toUtf8` -/
  toUtf8 : QString → QByteArray
  /-- `QString::fromUtf8` -/
  fromUtf8 : QByteArray → QString
  /-- `QString::toLower` -/
  toLower : QString → QString
  /-- `QCryptographicHash::hash` with `Md5` -/
  md5 : QByteArray → Octets 16
  /-- `QByteArray::number(double)` -/
  numberDouble : Double → QByteArray
  /-- `QByteArray::toDouble` -/
  toDouble : QByteArray → Double

/-- Qt's UTF-8 codec on text that has a faithful UTF-8 form. -/
class LawfulQtUtf8 [Qt] : Prop where
  fromUtf8_toUtf8 : ∀ s : QString, s.Portable → Qt.fromUtf8 (Qt.toUtf8 s) = s
  zero_notMem_toUtf8 : ∀ s : QString, (0 : UInt16) ∉ s → (0 : UInt8) ∉ Qt.toUtf8 s

/-- Only a zero byte is decoded to U+0000. -/
class LawfulQtFromUtf8 [Qt] : Prop where
  zero_notMem_fromUtf8 : ∀ bs : QByteArray, (0 : UInt8) ∉ bs → (0 : UInt16) ∉ Qt.fromUtf8 bs

/-- Qt's UTF-8 codec on well-formed text: it writes UTF-8, and reads it back unless a byte-order
    mark leads. -/
class LawfulQtText [Qt] : Prop where
  toUtf8_eq : ∀ s : QString, Utf8.wellFormed s = true → Qt.toUtf8 s = Utf8.encode s
  fromUtf8_encode : ∀ s : QString, Utf8.wellFormed s = true → s.head? ≠ some 0xFEFF →
    Qt.fromUtf8 (Utf8.encode s) = s

/-- Lower case of an ASCII code unit. -/
def QString.lowerUnit (c : UInt16) : UInt16 :=
  if 0x41 ≤ c.toNat && c.toNat ≤ 0x5A then c + 0x20 else c

/-- Qt's lower-casing of ASCII text. -/
class LawfulQtToLower [Qt] : Prop where
  toLower_ascii : ∀ s : QString, (∀ c ∈ s, c.toNat < 0x80) →
    Qt.toLower s = s.map QString.lowerUnit

/-- A digest for closed examples: each of its bytes is a hash of all the data, from a start of its
    own. -/
def sampleDigest (data : QByteArray) : Octets 16 :=
  Octets.copyOf 16 ((List.range 16).map fun i =>
    data.foldl (fun hash byte => 31 * hash + byte) (UInt8.ofNat i))

/-- A Qt for closed examples: the UTF-8 codec of `Utf8` and ASCII case. The text of doubles is a
    placeholder no example looks at. -/
abbrev sampleQt : Qt where
  toUtf8 := Utf8.encode
  fromUtf8 := Utf8.decode
  toLower s := s.map fun c => if 0x41 ≤ c.toNat && c.toNat ≤ 0x5A then c + 0x20 else c
  md5 := sampleDigest
  numberDouble _ := []
  toDouble _ := ⟨0⟩

theorem sampleQt_lawfulUtf8 : @LawfulQtUtf8 sampleQt :=
  letI := sampleQt
  { fromUtf8_toUtf8 := fun _ h => Utf8.decode_encode h.1 h.2.2
    zero_notMem_toUtf8 := fun s h => Utf8.zero_notMem_encode s h }

theorem sampleQt_lawfulText : @LawfulQtText sampleQt :=
  letI := sampleQt
  { toUtf8_eq := fun _ _ => rfl
    fromUtf8_encode := fun _ h hbom => Utf8.decode_encode h hbom }

theorem sampleQt_lawfulToLower : @LawfulQtToLower sampleQt :=
  letI := sampleQt
  { toLower_ascii := fun _ _ => rfl }

theorem sampleQt_lawfulFromUtf8 : @LawfulQtFromUtf8 sampleQt :=
  letI := sampleQt
  { zero_notMem_fromUtf8 := Utf8.zero_notMem_decode }

end Amule
