/-!
# Numerals — hexadecimal text for addresses, opcodes and operands

Lower-case digits throughout.  `hexDigits` has no leading zeros, `hexPadded` fills with zeros on the
left up to a width and never cuts, `hex` and `address` put `0x` in front.
-/

namespace Cartridge

/-- Hexadecimal digits without leading zeros; zero is `0`. -/
def hexDigits (n : Nat) : String :=
  String.ofList (Nat.toDigits 16 n)

/-- Hexadecimal digits, at least `width` of them. -/
def hexPadded (width n : Nat) : String :=
  String.ofList ((Nat.toDigits 16 n).leftpad width '0')

/-- Hexadecimal with its `0x` mark. -/
def hex (n : Nat) : String :=
  "0x" ++ hexDigits n

/-- An address: `0x` and eight digits. -/
def addressText (a : UInt32) : String :=
  "0x" ++ hexPadded 8 a.toNat

/-- The value of one hexadecimal digit of either case. -/
def hexDigit? (c : Char) : Option Nat :=
  if '0' ≤ c ∧ c ≤ '9' then some (c.toNat - '0'.toNat)
  else if 'a' ≤ c ∧ c ≤ 'f' then some (c.toNat - 'a'.toNat + 10)
  else if 'A' ≤ c ∧ c ≤ 'F' then some (c.toNat - 'A'.toNat + 10)
  else none

/-- The value of a nonempty run of digits in `base`, most significant digit first. -/
def digitsValue? (base : Nat) : List Char → Option Nat
  | [] => none
  | cs => cs.foldl (fun value? c => do
      let value ← value?
      let digit ← hexDigit? c
      if digit < base then some (value * base + digit) else none) (some 0)

end Cartridge
