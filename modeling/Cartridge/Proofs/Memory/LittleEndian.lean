import Cartridge.Memory.Basic
import Mathlib.Algebra.Order.Group.Nat

/-!
# LittleEndian — numbers and their bytes

The bytes of a number stand for what fits in them, and no bytes stand for more.  Bytes are those of
the number that they stand for, and share their bits with it.
-/

namespace Cartridge.Memory

theorem littleEndian_toLittleEndian (width n : Nat) :
    littleEndian (toLittleEndian width n) = n % 256 ^ width := by
  induction width generalizing n with
  | zero => simp [toLittleEndian, littleEndian, Nat.mod_one]
  | succ width ih =>
    rw [toLittleEndian, littleEndian, ih, Nat.pow_succ, Nat.mul_comm (256 ^ width),
      Nat.mod_mul]
    simp

theorem littleEndian_lt (bytes : List UInt8) : littleEndian bytes < 256 ^ bytes.length := by
  induction bytes with
  | nil => simp [littleEndian]
  | cons b rest ih =>
    have := b.toNat_lt
    simp only [littleEndian, List.length_cons, Nat.pow_succ]
    omega

theorem toLittleEndian_littleEndian (bytes : List UInt8) :
    toLittleEndian bytes.length (littleEndian bytes) = bytes := by
  induction bytes with
  | nil => rfl
  | cons b rest ih =>
    have hb := b.toNat_lt
    have hlow : (b.toNat + 256 * littleEndian rest).toUInt8 = b :=
      UInt8.toNat_inj.mp (by simp)
    have hhigh : (b.toNat + 256 * littleEndian rest) / 256 = littleEndian rest := by omega
    rw [List.length_cons, littleEndian, toLittleEndian, hlow, hhigh, ih]

/-- The bits of a number are those of its bytes, eight to a byte, the lowest first. -/
theorem testBit_littleEndian (bytes : List UInt8) (i : Nat) :
    (littleEndian bytes).testBit i = (bytes[i / 8]?.getD 0).toNat.testBit (i % 8) := by
  induction bytes generalizing i with
  | nil => simp [littleEndian]
  | cons b rest ih =>
    have hsplit : littleEndian (b :: rest) = 2 ^ 8 * littleEndian rest + b.toNat :=
      Nat.add_comm _ _
    rw [hsplit, Nat.testBit_two_pow_mul_add _ b.toNat_lt]
    split
    · next hlt => rw [Nat.div_eq_of_lt hlt, Nat.mod_eq_of_lt hlt, List.getElem?_cons_zero]; rfl
    · next hge =>
      rw [ih, show i / 8 = (i - 8) / 8 + 1 by omega, show i % 8 = (i - 8) % 8 by omega,
        List.getElem?_cons_succ]

end Cartridge.Memory
