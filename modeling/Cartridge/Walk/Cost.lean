/-!
# Cost — what walking costs, in single precision

A finite cost is a whole number of units of `2 ^ (-149)`, the smallest step of single precision, so
sums are taken exactly and then rounded to 24 significant bits, a half going to the even neighbour.
A sum beyond the largest finite number is infinite.  There is no cost below zero: a walk over nodes
that pay for being walked on could go round in circles, and is not modelled.
-/

namespace Cartridge

/-- A single-precision number by its bit pattern. -/
structure Binary32 where
  bits : UInt32
deriving DecidableEq

/-- A number that is zero or more: the patterns up to infinity, and minus zero. -/
def Binary32.IsNonneg (b : Binary32) : Prop :=
  b.bits ≤ 0x7F800000 ∨ b.bits = 0x80000000

instance (b : Binary32) : Decidable b.IsNonneg :=
  inferInstanceAs (Decidable (_ ∨ _))

/-- A cost: zero or more, possibly infinite. -/
inductive Cost where
  | finite (units : Nat)
  | infinite
deriving DecidableEq

namespace Cost

/-- The units of the largest finite cost. -/
def largest : Nat := 0xFFFFFF <<< 253

/-- The nearest number with 24 significant bits; of two nearest the one whose last bit is even. -/
def roundUnits (n : Nat) : Nat :=
  let shift := n.log2 + 1 - 24
  let kept := n >>> shift
  let rest := n - kept <<< shift
  let roundUp := 1 <<< shift < 2 * rest ∨ 2 * rest = 1 <<< shift ∧ kept % 2 = 1
  (if roundUp then kept + 1 else kept) <<< shift

/-- The cost nearest to a number of units. -/
def ofUnits (n : Nat) : Cost :=
  let rounded := roundUnits n
  if rounded ≤ largest then finite rounded else infinite

/-- The cost nearest to a whole number. -/
def ofNat (n : Nat) : Cost :=
  ofUnits (n <<< 149)

/-- No cost at all. -/
def zero : Cost := finite 0

/-- The rounded sum. -/
def add : Cost → Cost → Cost
  | finite a, finite b => ofUnits (a + b)
  | _, _ => infinite

/-- Whether the first cost is smaller. -/
def less : Cost → Cost → Bool
  | finite a, finite b => a < b
  | finite _, infinite => true
  | infinite, _ => false

/-- The cost with a bit pattern, for numbers that are zero or more (`Binary32.IsNonneg`).  A number
below zero and a pattern that is no number stand for no cost: here the sign is not looked at and the
latter is infinite, which says nothing about walking at them. -/
def ofBinary32 (b : Binary32) : Cost :=
  let exponent := (b.bits.toNat >>> 23) % 256
  let fraction := b.bits.toNat % 0x800000
  if exponent = 255 then infinite
  else if exponent = 0 then finite fraction
  else finite ((0x800000 + fraction) <<< (exponent - 1))

end Cost

end Cartridge
