import Mathlib.Data.List.Basic

/-!
# UTF-16 text and its UTF-8 form

Text is a list of UTF-16 code units. `Utf8.encode` joins surrogate pairs and
writes each code point in one to four bytes; `Utf8.decode` reads the bytes
back, dropping a leading byte-order mark and answering U+FFFD for every byte
that starts no valid sequence. `Utf8.decode_encode` is the round trip on
well-formed text that does not itself start with U+FEFF.
-/

namespace Utf8

/-- The first half of a surrogate pair. -/
def isHigh (c : UInt16) : Bool := 0xD800 ≤ c.toNat && c.toNat < 0xDC00

/-- The second half of a surrogate pair. -/
def isLow (c : UInt16) : Bool := 0xDC00 ≤ c.toNat && c.toNat < 0xE000

/-- Every surrogate belongs to a pair, first half first. -/
def wellFormed : List UInt16 → Bool
  | [] => true
  | [c] => !isHigh c && !isLow c
  | c :: d :: rest =>
    if isHigh c then isLow d && wellFormed rest
    else !isLow c && wellFormed (d :: rest)

/-- The bytes of one code point. -/
def encodeScalar (n : ℕ) : List UInt8 :=
  if n < 0x80 then [.ofNat n]
  else if n < 0x800 then [.ofNat (0xC0 + n / 0x40), .ofNat (0x80 + n % 0x40)]
  else if n < 0x10000 then
    [.ofNat (0xE0 + n / 0x1000), .ofNat (0x80 + n / 0x40 % 0x40), .ofNat (0x80 + n % 0x40)]
  else
    [.ofNat (0xF0 + n / 0x40000), .ofNat (0x80 + n / 0x1000 % 0x40),
      .ofNat (0x80 + n / 0x40 % 0x40), .ofNat (0x80 + n % 0x40)]

/-- The code point of a surrogate pair. -/
def pairScalar (c d : UInt16) : ℕ := 0x10000 + (c.toNat - 0xD800) * 0x400 + (d.toNat - 0xDC00)

/-- UTF-8 of a text; a surrogate outside a pair is written as `?`. -/
def encode : List UInt16 → List UInt8
  | [] => []
  | [c] => encodeScalar (if isHigh c || isLow c then 0x3F else c.toNat)
  | c :: d :: rest =>
    if isHigh c && isLow d then encodeScalar (pairScalar c d) ++ encode rest
    else encodeScalar (if isHigh c || isLow c then 0x3F else c.toNat) ++ encode (d :: rest)

/-- The code units of one code point. -/
def units (n : ℕ) : List UInt16 :=
  if n < 0x10000 then [.ofNat n]
  else [.ofNat (0xD800 + (n - 0x10000) / 0x400), .ofNat (0xDC00 + (n - 0x10000) % 0x400)]

/-- A continuation byte, `10xxxxxx`. -/
def isTail (b : UInt8) : Bool := 0x80 ≤ b.toNat && b.toNat < 0xC0

def scalar2 (a b : UInt8) : ℕ := (a.toNat - 0xC0) * 0x40 + (b.toNat - 0x80)

def scalar3 (a b c : UInt8) : ℕ :=
  (a.toNat - 0xE0) * 0x1000 + (b.toNat - 0x80) * 0x40 + (c.toNat - 0x80)

def scalar4 (a b c d : UInt8) : ℕ :=
  (a.toNat - 0xF0) * 0x40000 + (b.toNat - 0x80) * 0x1000 + (c.toNat - 0x80) * 0x40 +
    (d.toNat - 0x80)

/-- A two-byte sequence, not overlong. -/
def valid2 (a b : UInt8) : Bool := 0xC2 ≤ a.toNat && a.toNat < 0xE0 && isTail b

/-- A three-byte sequence, neither overlong nor a surrogate. -/
def valid3 (a b c : UInt8) : Bool :=
  0xE0 ≤ a.toNat && a.toNat < 0xF0 && isTail b && isTail c &&
    0x800 ≤ scalar3 a b c && !(0xD800 ≤ scalar3 a b c && scalar3 a b c < 0xE000)

/-- A four-byte sequence, neither overlong nor above U+10FFFF. -/
def valid4 (a b c d : UInt8) : Bool :=
  0xF0 ≤ a.toNat && a.toNat < 0xF8 && isTail b && isTail c && isTail d &&
    0x10000 ≤ scalar4 a b c d && scalar4 a b c d < 0x110000

/-- What the byte `a` starts: how many of the bytes `rest` after it belong to
    the same sequence, and the code units it stands for. -/
def lead (a : UInt8) (rest : List UInt8) : ℕ × List UInt16 :=
  let b := rest.getD 0 0
  let c := rest.getD 1 0
  let d := rest.getD 2 0
  if a.toNat < 0x80 then (0, [.ofNat a.toNat])
  else if valid2 a b then (1, units (scalar2 a b))
  else if valid3 a b c then (2, units (scalar3 a b c))
  else if valid4 a b c d then (3, units (scalar4 a b c d))
  else (0, [0xFFFD])

/-- The text of a byte sequence, after `skip` bytes that are already read. -/
def decodeFrom : (skip : ℕ) → List UInt8 → List UInt16
  | _, [] => []
  | skip + 1, _ :: rest => decodeFrom skip rest
  | 0, a :: rest => (lead a rest).2 ++ decodeFrom (lead a rest).1 rest

/-- The text of a byte sequence; a leading byte-order mark is dropped. -/
def decode : List UInt8 → List UInt16
  | 0xEF :: 0xBB :: 0xBF :: rest => decodeFrom 0 rest
  | bs => decodeFrom 0 bs

/-- A Unicode scalar value: a code point that is no surrogate. -/
def IsScalar (n : ℕ) : Prop := n < 0xD800 ∨ (0xE000 ≤ n ∧ n < 0x110000)

private theorem toNat_byte {n : ℕ} (h : n < 256) : (UInt8.ofNat n).toNat = n := by
  rw [UInt8.toNat_ofNat', Nat.mod_eq_of_lt h]

private theorem lead_one {n : ℕ} (h : n < 0x80) (rest : List UInt8) :
    lead (.ofNat n) rest = (0, units n) := by
  have ha := toNat_byte (n := n) (by omega)
  simp [lead, units, ha, h, show n < 65536 by omega]

private theorem lead_two {n : ℕ} (hlo : 0x80 ≤ n) (hhi : n < 0x800) (rest : List UInt8) :
    lead (.ofNat (0xC0 + n / 0x40)) (.ofNat (0x80 + n % 0x40) :: rest) = (1, units n) := by
  have ha := toNat_byte (n := 0xC0 + n / 0x40) (by omega)
  have hb := toNat_byte (n := 0x80 + n % 0x40) (by omega)
  have hv : valid2 (.ofNat (0xC0 + n / 0x40)) (.ofNat (0x80 + n % 0x40)) = true := by
    simp only [valid2, isTail, ha, hb, Bool.and_eq_true, decide_eq_true_eq]
    omega
  have hs : scalar2 (.ofNat (0xC0 + n / 0x40)) (.ofNat (0x80 + n % 0x40)) = n := by
    unfold scalar2
    rw [ha, hb]
    omega
  simp only [lead, List.getD_cons_zero, ha]
  rw [if_neg (by omega), if_pos hv, hs]

private theorem lead_three {n : ℕ} (hlo : 0x800 ≤ n) (hhi : n < 0x10000) (hn : IsScalar n)
    (rest : List UInt8) :
    lead (.ofNat (0xE0 + n / 0x1000))
      (.ofNat (0x80 + n / 0x40 % 0x40) :: .ofNat (0x80 + n % 0x40) :: rest) = (2, units n) := by
  have ha := toNat_byte (n := 0xE0 + n / 0x1000) (by omega)
  have hb := toNat_byte (n := 0x80 + n / 0x40 % 0x40) (by omega)
  have hc := toNat_byte (n := 0x80 + n % 0x40) (by omega)
  have hs : scalar3 (.ofNat (0xE0 + n / 0x1000)) (.ofNat (0x80 + n / 0x40 % 0x40))
      (.ofNat (0x80 + n % 0x40)) = n := by
    unfold scalar3
    rw [ha, hb, hc]
    omega
  have hv2 : valid2 (.ofNat (0xE0 + n / 0x1000)) (.ofNat (0x80 + n / 0x40 % 0x40)) = false := by
    simp only [valid2, ha, Bool.and_eq_false_iff, decide_eq_false_iff_not]
    omega
  have hv : valid3 (.ofNat (0xE0 + n / 0x1000)) (.ofNat (0x80 + n / 0x40 % 0x40))
      (.ofNat (0x80 + n % 0x40)) = true := by
    unfold IsScalar at hn
    simp only [valid3, isTail, ha, hb, hc, hs, Bool.and_eq_true, Bool.not_eq_true',
      Bool.and_eq_false_iff, decide_eq_true_eq, decide_eq_false_iff_not]
    omega
  simp only [lead, List.getD_cons_zero, List.getD_cons_succ, ha]
  rw [if_neg (by omega), hv2, if_neg Bool.false_ne_true, if_pos hv, hs]

private theorem lead_four {n : ℕ} (hlo : 0x10000 ≤ n) (hhi : n < 0x110000)
    (rest : List UInt8) :
    lead (.ofNat (0xF0 + n / 0x40000))
      (.ofNat (0x80 + n / 0x1000 % 0x40) :: .ofNat (0x80 + n / 0x40 % 0x40) ::
        .ofNat (0x80 + n % 0x40) :: rest) = (3, units n) := by
  have ha := toNat_byte (n := 0xF0 + n / 0x40000) (by omega)
  have hb := toNat_byte (n := 0x80 + n / 0x1000 % 0x40) (by omega)
  have hc := toNat_byte (n := 0x80 + n / 0x40 % 0x40) (by omega)
  have hd := toNat_byte (n := 0x80 + n % 0x40) (by omega)
  have hs : scalar4 (.ofNat (0xF0 + n / 0x40000)) (.ofNat (0x80 + n / 0x1000 % 0x40))
      (.ofNat (0x80 + n / 0x40 % 0x40)) (.ofNat (0x80 + n % 0x40)) = n := by
    unfold scalar4
    rw [ha, hb, hc, hd]
    omega
  have hv2 : ∀ b, valid2 (.ofNat (0xF0 + n / 0x40000)) b = false := by
    intro b
    simp only [valid2, ha, Bool.and_eq_false_iff, decide_eq_false_iff_not]
    omega
  have hv3 : ∀ b c, valid3 (.ofNat (0xF0 + n / 0x40000)) b c = false := by
    intro b c
    simp only [valid3, ha, Bool.and_eq_false_iff, decide_eq_false_iff_not]
    omega
  have hv : valid4 (.ofNat (0xF0 + n / 0x40000)) (.ofNat (0x80 + n / 0x1000 % 0x40))
      (.ofNat (0x80 + n / 0x40 % 0x40)) (.ofNat (0x80 + n % 0x40)) = true := by
    simp only [valid4, isTail, ha, hb, hc, hd, hs, Bool.and_eq_true, decide_eq_true_eq]
    omega
  simp only [lead, List.getD_cons_zero, List.getD_cons_succ, ha]
  rw [if_neg (by omega), hv2, if_neg Bool.false_ne_true, hv3, if_neg Bool.false_ne_true,
    if_pos hv, hs]

/-- Decoding reads one encoded scalar value off the front. -/
theorem decodeFrom_encodeScalar {n : ℕ} (hn : IsScalar n) (rest : List UInt8) :
    decodeFrom 0 (encodeScalar n ++ rest) = units n ++ decodeFrom 0 rest := by
  have hmax : n < 0x110000 := by unfold IsScalar at hn; omega
  unfold encodeScalar
  split
  next h1 => simp only [List.cons_append, List.nil_append, decodeFrom, lead_one h1]
  next h1 =>
    have h1 : 0x80 ≤ n := by omega
    split
    next h2 => simp only [List.cons_append, List.nil_append, decodeFrom, lead_two h1 h2]
    next h2 =>
      have h2 : 0x800 ≤ n := by omega
      split
      next h3 => simp only [List.cons_append, List.nil_append, decodeFrom, lead_three h2 h3 hn]
      next h3 =>
        have h3 : 0x10000 ≤ n := by omega
        simp only [List.cons_append, List.nil_append, decodeFrom, lead_four h3 hmax]

theorem isHigh_iff {c : UInt16} : isHigh c = true ↔ 0xD800 ≤ c.toNat ∧ c.toNat < 0xDC00 := by
  simp [isHigh]

theorem isLow_iff {c : UInt16} : isLow c = true ↔ 0xDC00 ≤ c.toNat ∧ c.toNat < 0xE000 := by
  simp [isLow]

/-- A code unit that is no surrogate is the scalar value it encodes. -/
theorem isScalar_unit {c : UInt16} (hh : isHigh c = false) (hl : isLow c = false) :
    IsScalar c.toNat := by
  rw [Bool.eq_false_iff, ne_eq, isHigh_iff] at hh
  rw [Bool.eq_false_iff, ne_eq, isLow_iff] at hl
  have := c.toNat_lt
  unfold IsScalar
  omega

theorem units_unit (c : UInt16) : units c.toNat = [c] := by
  have hc : c.toNat < 0x10000 := c.toNat_lt
  rw [units, if_pos hc, UInt16.ofNat_toNat]

theorem isScalar_pair {c d : UInt16} (hc : isHigh c = true) (hd : isLow d = true) :
    IsScalar (pairScalar c d) := by
  rw [isHigh_iff] at hc
  rw [isLow_iff] at hd
  unfold IsScalar pairScalar
  omega

theorem units_pair {c d : UInt16} (hc : isHigh c = true) (hd : isLow d = true) :
    units (pairScalar c d) = [c, d] := by
  rw [isHigh_iff] at hc
  rw [isLow_iff] at hd
  have h1 : 0xD800 + (pairScalar c d - 0x10000) / 0x400 = c.toNat := by
    unfold pairScalar
    omega
  have h2 : 0xDC00 + (pairScalar c d - 0x10000) % 0x400 = d.toNat := by
    unfold pairScalar
    omega
  have h3 : ¬pairScalar c d < 0x10000 := by
    unfold pairScalar
    omega
  rw [units, if_neg h3, h1, h2, UInt16.ofNat_toNat, UInt16.ofNat_toNat]

/-- Well-formed text is the list of its scalar values, each in one or two code units. -/
theorem wellFormed_cases {c : UInt16} {s : List UInt16} (h : wellFormed (c :: s) = true) :
    (isHigh c = false ∧ isLow c = false ∧ wellFormed s = true ∧
      encode (c :: s) = encodeScalar c.toNat ++ encode s) ∨
    (∃ d rest, s = d :: rest ∧ isHigh c = true ∧ isLow d = true ∧ wellFormed rest = true ∧
      encode (c :: s) = encodeScalar (pairScalar c d) ++ encode rest) := by
  cases s with
  | nil =>
    simp only [wellFormed, Bool.and_eq_true, Bool.not_eq_true'] at h
    exact .inl ⟨h.1, h.2, rfl, by simp [encode, h.1, h.2]⟩
  | cons d rest =>
    cases hc : isHigh c with
    | true =>
      simp only [wellFormed, hc, if_true, Bool.and_eq_true] at h
      exact .inr ⟨d, rest, rfl, rfl, h.1, h.2, by simp [encode, hc, h.1]⟩
    | false =>
      simp only [wellFormed, hc, Bool.false_eq_true, if_false, Bool.and_eq_true,
        Bool.not_eq_true'] at h
      exact .inl ⟨rfl, h.1, h.2, by simp [encode, hc, h.1]⟩

/-- Well-formed text is built from its end, by single units and by pairs. -/
theorem wellFormed_induction {P : List UInt16 → Prop} (nil : P [])
    (unit : ∀ c s, isHigh c = false → isLow c = false → wellFormed s = true → P s → P (c :: s))
    (pair : ∀ c d s, isHigh c = true → isLow d = true → wellFormed s = true → P s →
      P (c :: d :: s)) (s : List UInt16) (h : wellFormed s = true) : P s := by
  induction hlen : s.length using Nat.strongRecOn generalizing s with
  | _ len ih =>
    cases s with
    | nil => exact nil
    | cons c s =>
      rw [List.length_cons] at hlen
      rcases wellFormed_cases h with ⟨hh, hl, hs, -⟩ | ⟨d, rest, rfl, hh, hl, hs, -⟩
      · exact unit c s hh hl hs (ih _ (by omega) s hs rfl)
      · rw [List.length_cons] at hlen
        exact pair c d rest hh hl hs (ih _ (by omega) rest hs rfl)

theorem wellFormed_unit {c : UInt16} (hh : isHigh c = false) (hl : isLow c = false)
    (s : List UInt16) : wellFormed (c :: s) = wellFormed s := by
  cases s with
  | nil => simp [wellFormed, hh, hl]
  | cons d rest => simp [wellFormed, hh, hl]

theorem wellFormed_pair {c d : UInt16} (hh : isHigh c = true) (hl : isLow d = true)
    (s : List UInt16) : wellFormed (c :: d :: s) = wellFormed s := by
  simp [wellFormed, hh, hl]

theorem encode_unit {c : UInt16} (hh : isHigh c = false) (hl : isLow c = false)
    (s : List UInt16) : encode (c :: s) = encodeScalar c.toNat ++ encode s := by
  cases s with
  | nil => simp [encode, hh, hl]
  | cons d rest => simp [encode, hh, hl]

theorem encode_pair {c d : UInt16} (hh : isHigh c = true) (hl : isLow d = true)
    (s : List UInt16) : encode (c :: d :: s) = encodeScalar (pairScalar c d) ++ encode s := by
  simp [encode, hh, hl]

theorem wellFormed_append {s t : List UInt16} (hs : wellFormed s = true)
    (ht : wellFormed t = true) : wellFormed (s ++ t) = true := by
  refine wellFormed_induction (P := fun s => wellFormed (s ++ t) = true) ht ?_ ?_ s hs
  · intro c s hh hl _ ih
    rwa [List.cons_append, wellFormed_unit hh hl]
  · intro c d s hh hl _ ih
    rwa [List.cons_append, List.cons_append, wellFormed_pair hh hl]

theorem encode_append {s : List UInt16} (hs : wellFormed s = true) (t : List UInt16) :
    encode (s ++ t) = encode s ++ encode t := by
  refine wellFormed_induction (P := fun s => encode (s ++ t) = encode s ++ encode t) rfl ?_ ?_ s hs
  · intro c s hh hl _ ih
    rw [List.cons_append, encode_unit hh hl, encode_unit hh hl, ih, List.append_assoc]
  · intro c d s hh hl _ ih
    rw [List.cons_append, List.cons_append, encode_pair hh hl, encode_pair hh hl, ih,
      List.append_assoc]

theorem length_encodeScalar_le (n : ℕ) : (encodeScalar n).length ≤ 4 := by
  rw [encodeScalar]
  split_ifs <;> simp

theorem length_encodeScalar_unit (c : UInt16) : (encodeScalar c.toNat).length ≤ 3 := by
  have hlt : c.toNat < 0x10000 := c.toNat_lt
  rw [encodeScalar]
  split_ifs <;> simp

/-- A code unit takes three bytes at most, a pair of them four. -/
theorem length_encode_le {s : List UInt16} (hs : wellFormed s = true) :
    (encode s).length ≤ 3 * s.length := by
  refine wellFormed_induction (P := fun s => (encode s).length ≤ 3 * s.length) ?_ ?_ ?_ s hs
  · exact Nat.le_refl 0
  · intro c s hh hl _ ih
    have hunit := length_encodeScalar_unit c
    rw [encode_unit hh hl, List.length_append, List.length_cons]
    omega
  · intro c d s hh hl _ ih
    have hpair := length_encodeScalar_le (pairScalar c d)
    rw [encode_pair hh hl, List.length_append, List.length_cons, List.length_cons]
    omega

/-- Text of units below the surrogates is well-formed. -/
theorem wellFormed_of_lt {s : List UInt16} (h : ∀ c ∈ s, c.toNat < 0xD800) :
    wellFormed s = true := by
  induction s with
  | nil => rfl
  | cons c s ih =>
    obtain ⟨hc, hs⟩ := List.forall_mem_cons.mp h
    have hh : isHigh c = false := eq_false_of_ne_true fun hh => by
      have := (isHigh_iff.mp hh).1
      omega
    have hl : isLow c = false := eq_false_of_ne_true fun hl => by
      have := (isLow_iff.mp hl).1
      omega
    rw [wellFormed_unit hh hl, ih hs]

/-- Without a byte-order mark in the way, decoding inverts encoding. -/
theorem decodeFrom_encode (s : List UInt16) (h : wellFormed s = true) :
    decodeFrom 0 (encode s) = s := by
  refine wellFormed_induction (P := fun s => decodeFrom 0 (encode s) = s) rfl ?_ ?_ s h
  · intro c s hh hl _ ih
    rw [encode_unit hh hl, decodeFrom_encodeScalar (isScalar_unit hh hl), units_unit, ih,
      List.singleton_append]
  · intro c d s hh hl _ ih
    rw [encode_pair hh hl, decodeFrom_encodeScalar (isScalar_pair hh hl), units_pair hh hl, ih]
    rfl

/-- An ASCII byte is the encoding of its own character only. -/
private theorem eq_of_mem_encodeScalar {n : ℕ} (hn : n < 0x110000) {b : UInt8}
    (hb : b.toNat < 0x80) (hmem : b ∈ encodeScalar n) : n = b.toNat := by
  have high : ∀ {m : ℕ}, 0x80 ≤ m → m < 256 → b ≠ UInt8.ofNat m := by
    intro m hlo hlt he
    have := congrArg UInt8.toNat he
    rw [toNat_byte hlt] at this
    omega
  unfold encodeScalar at hmem
  split at hmem
  · rw [List.mem_singleton.mp hmem, toNat_byte (by omega)]
  · exfalso
    split at hmem
    · simp only [List.mem_cons, List.not_mem_nil, or_false] at hmem
      rcases hmem with h | h
      · exact high (by omega) (by omega) h
      · exact high (by omega) (by omega) h
    · split at hmem
      · simp only [List.mem_cons, List.not_mem_nil, or_false] at hmem
        rcases hmem with h | h | h
        · exact high (by omega) (by omega) h
        · exact high (by omega) (by omega) h
        · exact high (by omega) (by omega) h
      · simp only [List.mem_cons, List.not_mem_nil, or_false] at hmem
        rcases hmem with h | h | h | h
        · exact high (by omega) (by omega) h
        · exact high (by omega) (by omega) h
        · exact high (by omega) (by omega) h
        · exact high (by omega) (by omega) h

/-- An ASCII byte in the encoding of a text is a character of the text. -/
theorem mem_of_mem_encode {s : List UInt16} (h : wellFormed s = true) {b : UInt8}
    (hb : b.toNat < 0x80) (hmem : b ∈ encode s) : UInt16.ofNat b.toNat ∈ s := by
  revert hmem
  refine wellFormed_induction (P := fun s => b ∈ encode s → UInt16.ofNat b.toNat ∈ s) ?_ ?_ ?_ s h
  · intro hmem
    exact absurd hmem List.not_mem_nil
  · intro c s hh hl _ ih hmem
    rw [encode_unit hh hl] at hmem
    cases List.mem_append.mp hmem with
    | inl hmem =>
      have hc := c.toNat_lt
      rw [← eq_of_mem_encodeScalar (by omega) hb hmem, UInt16.ofNat_toNat]
      exact List.mem_cons_self
    | inr hmem => exact List.mem_cons_of_mem c (ih hmem)
  · intro c d s hh hl _ ih hmem
    rw [encode_pair hh hl] at hmem
    cases List.mem_append.mp hmem with
    | inl hmem =>
      have hscalar := isScalar_pair hh hl
      have hpair := eq_of_mem_encodeScalar (by unfold IsScalar at hscalar; omega) hb hmem
      unfold pairScalar at hpair
      omega
    | inr hmem => exact List.mem_cons_of_mem c (List.mem_cons_of_mem d (ih hmem))

/-- Only U+FEFF is encoded as the byte-order mark. -/
private theorem encodeScalar_bom {n : ℕ} (hn : IsScalar n) (tail rest : List UInt8)
    (h : encodeScalar n ++ tail = 0xEF :: 0xBB :: 0xBF :: rest) : n = 0xFEFF := by
  have hmax : n < 0x110000 := by unfold IsScalar at hn; omega
  have byte : ∀ {m k : ℕ}, m < 256 → k < 256 → UInt8.ofNat m = UInt8.ofNat k → m = k := by
    intro m k hm hk he
    rw [← toNat_byte hm, ← toNat_byte hk, he]
  unfold encodeScalar at h
  split at h
  · have h0 := byte (k := 0xEF) (by omega) (by omega) (List.cons.inj h).1
    omega
  · split at h
    · have h0 := byte (k := 0xEF) (by omega) (by omega) (List.cons.inj h).1
      omega
    · split at h
      · have h0 := byte (k := 0xEF) (by omega) (by omega) (List.cons.inj h).1
        have h1 := byte (k := 0xBB) (by omega) (by omega)
          (List.cons.inj (List.cons.inj h).2).1
        have h2 := byte (k := 0xBF) (by omega) (by omega)
          (List.cons.inj (List.cons.inj (List.cons.inj h).2).2).1
        omega
      · have h0 := byte (k := 0xEF) (by omega) (by omega) (List.cons.inj h).1
        omega

/-- The encoding of text that does not start with U+FEFF does not start with
    the byte-order mark. -/
theorem encode_ne_bom {s : List UInt16} (h : wellFormed s = true) (hbom : s.head? ≠ some 0xFEFF)
    (rest : List UInt8) : encode s ≠ 0xEF :: 0xBB :: 0xBF :: rest := by
  intro heq
  cases s with
  | nil => simp [encode] at heq
  | cons c s =>
    rcases wellFormed_cases h with ⟨hh, hl, -, he⟩ | ⟨d, tail, rfl, hh, hl, -, he⟩
    · rw [he] at heq
      have hc := encodeScalar_bom (isScalar_unit hh hl) _ _ heq
      exact hbom (congrArg some (UInt16.toNat_inj.mp hc))
    · rw [he] at heq
      have hc := encodeScalar_bom (isScalar_pair hh hl) _ _ heq
      unfold pairScalar at hc
      omega

/-- Decoding inverts encoding on well-formed text that does not start with U+FEFF. -/
theorem decode_encode {s : List UInt16} (h : wellFormed s = true)
    (hbom : s.head? ≠ some 0xFEFF) : decode (encode s) = s := by
  unfold decode
  split
  · exact absurd ‹_› (encode_ne_bom h hbom _)
  · exact decodeFrom_encode s h

/-- The encoding of a scalar value other than U+0000 has no zero byte. -/
private theorem zero_notMem_encodeScalar {n : ℕ} (h0 : n ≠ 0) (hmax : n < 0x110000) :
    (0 : UInt8) ∉ encodeScalar n := by
  have byte : ∀ {m : ℕ}, 0 < m → m < 256 → (0 : UInt8) ≠ UInt8.ofNat m := by
    intro m hpos hlt he
    have := congrArg UInt8.toNat he
    rw [toNat_byte hlt] at this
    exact absurd this (by simpa using Nat.ne_of_lt hpos)
  unfold encodeScalar
  split
  · simpa using byte (m := n) (by omega) (by omega)
  · split
    · simp only [List.mem_cons, List.not_mem_nil, or_false, not_or]
      exact ⟨byte (by omega) (by omega), byte (by omega) (by omega)⟩
    · split
      · simp only [List.mem_cons, List.not_mem_nil, or_false, not_or]
        exact ⟨byte (by omega) (by omega), byte (by omega) (by omega), byte (by omega) (by omega)⟩
      · simp only [List.mem_cons, List.not_mem_nil, or_false, not_or]
        exact ⟨byte (by omega) (by omega), byte (by omega) (by omega), byte (by omega) (by omega),
          byte (by omega) (by omega)⟩

/-- The encoding of text without U+0000 has no zero byte. -/
theorem zero_notMem_encode (s : List UInt16) (h : (0 : UInt16) ∉ s) :
    (0 : UInt8) ∉ encode s := by
  have unit : ∀ {c : UInt16}, c ≠ 0 →
      (0 : UInt8) ∉ encodeScalar (if isHigh c || isLow c then 0x3F else c.toNat) := by
    intro c hc
    have hlt := c.toNat_lt
    have hpos : c.toNat ≠ 0 := fun h0 => hc (UInt16.toNat_inj.mp h0)
    split
    · exact zero_notMem_encodeScalar (by decide) (by decide)
    · exact zero_notMem_encodeScalar hpos (by omega)
  fun_induction encode s with
  | case1 => simp
  | case2 c => exact unit (fun hc => h (by simp [hc]))
  | case3 c d rest hpair ih =>
    rw [Bool.and_eq_true] at hpair
    have hscalar := isScalar_pair hpair.1 hpair.2
    rw [List.mem_append, not_or]
    refine ⟨zero_notMem_encodeScalar ?_ ?_, ih (fun hr => h (by simp [hr]))⟩
    · unfold pairScalar
      omega
    · unfold IsScalar at hscalar
      omega
  | case4 c d rest _ ih =>
    rw [List.mem_append, not_or]
    exact ⟨unit (fun hc => h (by simp [hc])), ih (fun hr => h (List.mem_cons_of_mem _ hr))⟩

/-- U+0000 is the only code point with a zero code unit. -/
private theorem zero_notMem_units {n : ℕ} (hpos : 0 < n) (hlt : n < 0x110000) :
    (0 : UInt16) ∉ units n := by
  have hne {m : ℕ} (hm : 0 < m) (hm' : m < 0x10000) : (0 : UInt16) ≠ .ofNat m := by
    intro h
    have hnat : (0 : UInt16).toNat = (UInt16.ofNat m).toNat := congrArg UInt16.toNat h
    rw [UInt16.toNat_ofNat_of_lt' hm'] at hnat
    exact absurd hnat.symm (Nat.ne_of_gt hm)
  unfold units
  split
  next hsmall =>
    rw [List.mem_singleton]
    exact hne hpos hsmall
  next hlarge =>
    simp only [List.mem_cons, List.not_mem_nil, or_false, not_or]
    exact ⟨hne (by omega) (by omega), hne (by omega) (by omega)⟩

private theorem zero_notMem_lead {a : UInt8} (ha : a ≠ 0) (rest : List UInt8) :
    (0 : UInt16) ∉ (lead a rest).2 := by
  have hpos : 0 < a.toNat := Nat.pos_of_ne_zero fun hzero => ha (UInt8.toNat_inj.mp hzero)
  simp only [lead]
  generalize rest.getD 0 0 = b
  generalize rest.getD 1 0 = c
  generalize rest.getD 2 0 = d
  split
  next hascii =>
    have hunits := zero_notMem_units hpos (by omega)
    rwa [units, if_pos (by omega)] at hunits
  next =>
    split
    next hvalid =>
      simp only [valid2, isTail, Bool.and_eq_true, decide_eq_true_eq] at hvalid
      have hscalar : 0 < scalar2 a b ∧ scalar2 a b < 0x110000 := by
        unfold scalar2
        omega
      dsimp only
      exact zero_notMem_units hscalar.1 hscalar.2
    next =>
      split
      next hvalid =>
        simp only [valid3, isTail, Bool.and_eq_true, decide_eq_true_eq] at hvalid
        have hscalar : 0 < scalar3 a b c ∧ scalar3 a b c < 0x110000 := by
          refine ⟨by omega, ?_⟩
          unfold scalar3
          omega
        dsimp only
        exact zero_notMem_units hscalar.1 hscalar.2
      next =>
        split
        next hvalid =>
          simp only [valid4, Bool.and_eq_true, decide_eq_true_eq] at hvalid
          dsimp only
          exact zero_notMem_units (by omega) hvalid.2
        next => decide

private theorem zero_notMem_decodeFrom (skip : ℕ) (bs : List UInt8) (h : (0 : UInt8) ∉ bs) :
    (0 : UInt16) ∉ decodeFrom skip bs := by
  induction bs generalizing skip with
  | nil => cases skip <;> exact List.not_mem_nil
  | cons a rest ih =>
    rw [List.mem_cons, not_or] at h
    cases skip with
    | zero =>
      rw [decodeFrom, List.mem_append, not_or]
      exact ⟨zero_notMem_lead (Ne.symm h.1) rest, ih _ h.2⟩
    | succ skip => exact ih skip h.2

/-- Bytes without a zero stand for text without U+0000. -/
theorem zero_notMem_decode (bs : List UInt8) (h : (0 : UInt8) ∉ bs) :
    (0 : UInt16) ∉ decode bs := by
  unfold decode
  split
  next rest =>
    simp only [List.mem_cons, not_or] at h
    exact zero_notMem_decodeFrom 0 rest h.2.2.2
  · exact zero_notMem_decodeFrom 0 bs h

/-! ## Characters -/

/-- The characters of a text; a surrogate outside a pair is none. -/
def chars : List UInt16 → List Char
  | [] => []
  | [c] => [.ofNat c.toNat]
  | c :: d :: rest =>
    if isHigh c && isLow d then .ofNat (pairScalar c d) :: chars rest
    else .ofNat c.toNat :: chars (d :: rest)

theorem chars_unit {c : UInt16} (hh : isHigh c = false) (s : List UInt16) :
    chars (c :: s) = .ofNat c.toNat :: chars s := by
  cases s with
  | nil => rfl
  | cons d rest => simp [chars, hh]

theorem chars_pair {c d : UInt16} (hh : isHigh c = true) (hl : isLow d = true)
    (s : List UInt16) : chars (c :: d :: s) = .ofNat (pairScalar c d) :: chars s := by
  simp [chars, hh, hl]

/-- Before another text, units without surrogates are characters. -/
theorem chars_append {us : List UInt16} (hus : ∀ c ∈ us, isHigh c = false ∧ isLow c = false)
    (s : List UInt16) : chars (us ++ s) = us.map (fun c => Char.ofNat c.toNat) ++ chars s ∧
      wellFormed (us ++ s) = wellFormed s := by
  induction us with
  | nil => exact ⟨rfl, rfl⟩
  | cons c us ih =>
    obtain ⟨hh, hl⟩ := hus c List.mem_cons_self
    obtain ⟨hchars, hwell⟩ := ih fun d hd => hus d (List.mem_cons_of_mem c hd)
    rw [List.cons_append, chars_unit hh, hchars, wellFormed_unit hh hl, hwell]
    exact ⟨rfl, rfl⟩

theorem toNat_char {n : ℕ} (h : IsScalar n) : (Char.ofNat n).toNat = n := by
  have hvalid : n.isValidChar := h.imp_right fun h => ⟨h.1, h.2⟩
  rw [Char.ofNat, dif_pos hvalid]
  rfl

end Utf8
