import Mathlib.Data.Nat.Notation
import Mathlib.Tactic.Ring

/-! # Little-endian numbers as byte strings -/

namespace YaskawaComms

/-- The `width` low bytes of a number, least significant first. -/
def littleEndian : Nat → Nat → List UInt8
  | 0, _ => []
  | width+1, n => UInt8.ofNat n :: littleEndian width (n / 256)

def ofLittleEndian : List UInt8 → Nat
  | [] => 0
  | b :: bs => b.toNat + 256 * ofLittleEndian bs

@[simp] theorem littleEndian_length (width n : Nat) : (littleEndian width n).length = width := by
  induction width generalizing n with
  | zero => rfl
  | succ width ih => simp [littleEndian, ih]

theorem ofLittleEndian_lt (bs : List UInt8) : ofLittleEndian bs < 256 ^ bs.length := by
  induction bs with
  | nil => simp [ofLittleEndian]
  | cons b bs ih =>
      have hb := b.toNat_lt
      simp only [ofLittleEndian, List.length_cons, pow_succ]
      omega

theorem ofLittleEndian_littleEndian (width n : Nat) (hn : n < 256 ^ width) :
    ofLittleEndian (littleEndian width n) = n := by
  induction width generalizing n with
  | zero =>
      rw [pow_zero] at hn
      simp only [littleEndian, ofLittleEndian]
      omega
  | succ width ih =>
      have hrest : n / 256 < 256 ^ width := by
        rw [pow_succ] at hn
        omega
      rw [littleEndian, ofLittleEndian, ih _ hrest, UInt8.toNat_ofNat']
      omega

end YaskawaComms
