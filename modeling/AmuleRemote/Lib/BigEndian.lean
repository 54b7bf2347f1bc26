import Mathlib.Data.List.Induction
import Mathlib.Data.Nat.ModEq
import Mathlib.Tactic.Ring

/-!
# Fixed-width big-endian numbers

`BigEndian.toBytes w v` lists the `w` low-order bytes of `v`, the most
significant first, and `BigEndian.ofBytes` reads such a list back. Both are
total: a number that does not fit is reduced modulo `256 ^ w`.
-/

namespace BigEndian

/-- The `w` low-order bytes of `v`, the most significant byte first. -/
def toBytes : (w : ℕ) → (v : ℕ) → List UInt8
  | 0, _ => []
  | w + 1, v => UInt8.ofNat (v / 256 ^ w) :: toBytes w v

/-- The number whose big-endian digits are `bs`. -/
def ofBytes (bs : List UInt8) : ℕ :=
  bs.foldl (fun acc b => acc * 256 + b.toNat) 0

@[simp] theorem length_toBytes (w v : ℕ) : (toBytes w v).length = w := by
  induction w with
  | zero => rfl
  | succ w ih => simp [toBytes, ih]

/-- Reading a written number after the digits `acc` appends its digits. -/
private theorem foldl_toBytes (w v acc : ℕ) :
    (toBytes w v).foldl (fun acc b => acc * 256 + b.toNat) acc =
      acc * 256 ^ w + v % 256 ^ w := by
  induction w generalizing acc with
  | zero => simp [toBytes, Nat.mod_one]
  | succ w ih =>
    have hsplit : v % 256 ^ (w + 1) = v % 256 ^ w + 256 ^ w * (v / 256 ^ w % 256) :=
      Nat.mod_pow_succ
    rw [toBytes, List.foldl_cons, ih, hsplit, UInt8.toNat_ofNat']
    ring

/-- Reading back a written number reduces it to the width it was written in. -/
theorem ofBytes_toBytes (w v : ℕ) : ofBytes (toBytes w v) = v % 256 ^ w := by
  rw [ofBytes, foldl_toBytes]
  simp

/-- A number that fits its width is read back exactly. -/
theorem ofBytes_toBytes_of_lt {w v : ℕ} (h : v < 256 ^ w) :
    ofBytes (toBytes w v) = v := by
  rw [ofBytes_toBytes, Nat.mod_eq_of_lt h]

theorem toBytes_inj {w v v' : ℕ} (hv : v < 256 ^ w) (hv' : v' < 256 ^ w)
    (h : toBytes w v = toBytes w v') : v = v' := by
  rw [← ofBytes_toBytes_of_lt hv, h, ofBytes_toBytes_of_lt hv']

theorem ofBytes_append_singleton (bs : List UInt8) (b : UInt8) :
    ofBytes (bs ++ [b]) = ofBytes bs * 256 + b.toNat := by
  rw [ofBytes, List.foldl_append]
  rfl

theorem ofBytes_lt (bs : List UInt8) : ofBytes bs < 256 ^ bs.length := by
  induction bs using List.reverseRecOn with
  | nil => exact Nat.one_pos
  | append_singleton bs b ih =>
    have hb := b.toNat_lt
    rw [ofBytes_append_singleton, List.length_append, List.length_singleton, pow_succ]
    omega

/-- The low-order byte is written last. -/
theorem toBytes_succ (w v : ℕ) :
    toBytes (w + 1) v = toBytes w (v / 256) ++ [UInt8.ofNat v] := by
  induction w generalizing v with
  | zero => simp [toBytes]
  | succ w ih =>
    have hdiv : v / 256 ^ (w + 1) = v / 256 / 256 ^ w := by
      rw [Nat.div_div_eq_div_mul, pow_succ, mul_comm]
    rw [toBytes, ih, hdiv]
    rfl

/-- Writing back a number that was read gives its bytes. -/
theorem toBytes_ofBytes (bs : List UInt8) : toBytes bs.length (ofBytes bs) = bs := by
  induction bs using List.reverseRecOn with
  | nil => rfl
  | append_singleton bs b ih =>
    have hb := b.toNat_lt
    have hdiv : ofBytes (bs ++ [b]) / 256 = ofBytes bs := by
      rw [ofBytes_append_singleton]
      omega
    have hlow : UInt8.ofNat (ofBytes (bs ++ [b])) = b := by
      apply UInt8.toNat_inj.mp
      rw [ofBytes_append_singleton, UInt8.toNat_ofNat']
      omega
    rw [List.length_append, List.length_singleton, toBytes_succ, hdiv, hlow, ih]

end BigEndian
