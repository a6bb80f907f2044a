import ClusterFence.Wire.Envelope
import Mathlib.Algebra.Group.Nat.Defs

namespace ClusterFence.Bytes

@[simp] theorem length_ofNat (width n : Nat) : (ofNat width n).length = width := by
  induction width generalizing n with
  | zero => rfl
  | succ width ih => simp [ofNat, ih]

theorem toNat_ofNat (width n : Nat) : toNat (ofNat width n) = n % 256 ^ width := by
  induction width generalizing n with
  | zero => simp [ofNat, toNat, Nat.mod_one]
  | succ width ih =>
    have hbyte : (UInt8.ofNat n).toNat = n % 256 := by simp
    rw [ofNat, toNat, ih, hbyte, Nat.pow_succ', Nat.mod_mul]

@[simp] theorem length_ofUInt16 (n : UInt16) : (ofUInt16 n).length = 2 := length_ofNat 2 _

@[simp] theorem length_ofUInt32 (n : UInt32) : (ofUInt32 n).length = 4 := length_ofNat 4 _

@[simp] theorem length_ofUInt64 (n : UInt64) : (ofUInt64 n).length = 8 := length_ofNat 8 _

/-- A number that has room in its bytes reads back. -/
theorem word_ofNat {width n : Nat} (hroom : n < 256 ^ width) (rest : List UInt8) :
    word width (ofNat width n ++ rest) = (n, rest) := by
  have hlength := length_ofNat width n
  rw [word, List.take_left' hlength, List.drop_left' hlength, toNat_ofNat, Nat.mod_eq_of_lt hroom]

section

variable {α β : Type}

@[simp] theorem pure_apply (a : α) (bs : List UInt8) : (pure a : Reader α) bs = (a, bs) := rfl

@[simp] theorem bind_apply (r : Reader α) (f : α → Reader β) (bs : List UInt8) :
    (r >>= f) bs = f (r bs).1 (r bs).2 := rfl

@[simp] theorem map_apply (f : α → β) (r : Reader α) (bs : List UInt8) :
    (f <$> r) bs = (f (r bs).1, (r bs).2) := rfl

end

@[simp] theorem uint16_ofUInt16 (n : UInt16) (rest : List UInt8) :
    uint16 (ofUInt16 n ++ rest) = (n, rest) := by
  have hroom : n.toNat < 256 ^ 2 := n.toNat_lt
  simp [uint16, ofUInt16, word_ofNat hroom]

@[simp] theorem uint32_ofUInt32 (n : UInt32) (rest : List UInt8) :
    uint32 (ofUInt32 n ++ rest) = (n, rest) := by
  have hroom : n.toNat < 256 ^ 4 := n.toNat_lt
  simp [uint32, ofUInt32, word_ofNat hroom]

@[simp] theorem uint64_ofUInt64 (n : UInt64) (rest : List UInt8) :
    uint64 (ofUInt64 n ++ rest) = (n, rest) := by
  have hroom : n.toNat < 256 ^ 8 := n.toNat_lt
  simp [uint64, ofUInt64, word_ofNat hroom]

end ClusterFence.Bytes
