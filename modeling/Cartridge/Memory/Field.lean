import Cartridge.Memory.Basic

/-!
# Field — packed records of little-endian numbers

`Memory.readFields` reads a whole record at once; padding takes room and yields no value.
-/

namespace Cartridge

/-- The format of one field of a packed record. -/
inductive Field where
  | u8 | u16 | u32 | i8 | i16 | i32
  /-- Bytes that are skipped. -/
  | pad (length : Nat)
deriving DecidableEq

namespace Field

/-- The number of bytes the field takes. -/
def size : Field → Nat
  | u8 | i8 => 1
  | u16 | i16 => 2
  | u32 | i32 => 4
  | pad length => length

/-- The number of bytes a record takes. -/
def totalSize (fields : List Field) : Nat :=
  fields.foldr (fun f total => f.size + total) 0

/-- A stored number of `width` bytes read as two's complement. -/
def signed (width n : Nat) : Int :=
  if n < 1 <<< (8 * width - 1) then n else (n : Int) - (1 <<< (8 * width) : Nat)

/-- The value of a field from its bytes; padding has none. -/
def value? (f : Field) (bytes : List UInt8) : Option Int :=
  match f with
  | u8 | u16 | u32 => some (Memory.littleEndian bytes)
  | i8 | i16 | i32 => some (signed f.size (Memory.littleEndian bytes))
  | pad _ => none

/-- The values of consecutive fields. -/
def values : List Field → List UInt8 → List Int
  | [], _ => []
  | f :: rest, bytes =>
    (f.value? (bytes.take f.size)).toList ++ values rest (bytes.drop f.size)

end Field

/-- The values of the record at `a`. -/
def Memory.readFields (m : Memory) (a : UInt32) (fields : List Field) :
    Except MemoryError (List Int) := do
  let bytes ← m.read a (Field.totalSize fields)
  pure (Field.values fields bytes)

end Cartridge
