import Cartridge.Numeral

/-!
# Memory — an address space made of byte regions

A `Memory` holds regions in increasing order of base.  An address belongs to the last region whose
base is not above it, whether or not that region is long enough to reach it; a read must lie inside
that one region.  Words are little-endian.
-/

namespace Cartridge

/-- Why bytes could not be read or written. -/
inductive MemoryError where
  /-- No region holds a byte at the address. -/
  | unmapped (address : UInt32)
  /-- The access starts in a region and runs past its end. -/
  | outOfBounds (address : UInt32) (length : Nat)
deriving DecidableEq

namespace MemoryError

/-- The address of the failing access. -/
def address : MemoryError → UInt32
  | unmapped a => a
  | outOfBounds a _ => a

/-- The wording of the error. -/
def message : MemoryError → String
  | unmapped a => "address " ++ addressText a ++ " is not backed by any region"
  | outOfBounds a n =>
    "read of " ++ toString n ++ " bytes at " ++ addressText a ++ " runs past the end of its region"

end MemoryError

/-- Consecutive bytes from a base address on. -/
structure Region where
  base : UInt32
  bytes : Array UInt8
deriving DecidableEq

/-- Regions, lowest base first. -/
structure Memory where
  regions : List Region
deriving DecidableEq

namespace Memory

/-- No region at all. -/
def empty : Memory := ⟨[]⟩

/-- Work memory starts here. -/
def workBase : UInt32 := 0x02000000

/-- Internal memory starts here. -/
def internalBase : UInt32 := 0x03000000

/-- The cartridge starts here. -/
def cartridgeBase : UInt32 := 0x08000000

/-- Places a region before the first one with a higher base. -/
def insert (r : Region) : List Region → List Region
  | [] => [r]
  | s :: rest => if r.base < s.base then r :: s :: rest else s :: insert r rest

/-- Maps `bytes` at `base` in place of any region with that base. -/
def map (m : Memory) (base : UInt32) (bytes : Array UInt8) : Memory :=
  ⟨insert ⟨base, bytes⟩ (m.regions.filter (·.base != base))⟩

/-- The last region whose base is not above the address. -/
def region? (m : Memory) (a : UInt32) : Option Region :=
  m.regions.foldl (fun found r => if r.base ≤ a then some r else found) none

/-- How far the address lies above the region's base. -/
def offset (r : Region) (a : UInt32) : Nat :=
  (a - r.base).toNat

/-- The number of mapped bytes over all regions. -/
def mappedBytes (m : Memory) : Nat :=
  m.regions.foldr (fun r total => r.bytes.size + total) 0

/-- The `length` bytes from `a` on.  The first of them must exist even when `length` is zero. -/
def read (m : Memory) (a : UInt32) (length : Nat) : Except MemoryError (List UInt8) :=
  match m.region? a with
  | none => .error (.unmapped a)
  | some r =>
    let start := offset r a
    if r.bytes.size ≤ start then .error (.unmapped a)
    else if r.bytes.size < start + length then .error (.outOfBounds a length)
    else .ok (r.bytes.extract start (start + length)).toList

/-- Replaces the bytes from `start` on by `data`. -/
def overwrite (bytes : Array UInt8) (start : Nat) : List UInt8 → Array UInt8
  | [] => bytes
  | b :: rest => overwrite (bytes.setIfInBounds start b) (start + 1) rest

/-- Writes `data` at `a`, inside one region. -/
def write (m : Memory) (a : UInt32) (data : List UInt8) : Except MemoryError Memory :=
  match m.region? a with
  | none => .error (.unmapped a)
  | some r =>
    let start := offset r a
    if r.bytes.size < start + data.length then .error (.outOfBounds a data.length)
    else .ok ⟨m.regions.map fun s =>
      if s.base = r.base then ⟨s.base, overwrite s.bytes start data⟩ else s⟩

/-- The number that little-endian bytes stand for. -/
def littleEndian : List UInt8 → Nat
  | [] => 0
  | b :: rest => b.toNat + 256 * littleEndian rest

/-- The `width` lowest bytes of a number, little-endian. -/
def toLittleEndian : (width : Nat) → Nat → List UInt8
  | 0, _ => []
  | width + 1, n => n.toUInt8 :: toLittleEndian width (n / 256)

@[simp] theorem length_toLittleEndian (width n : Nat) :
    (toLittleEndian width n).length = width := by
  induction width generalizing n with
  | zero => rfl
  | succ width ih => simp [toLittleEndian, ih]

/-- The number stored in `width` bytes at `a`. -/
def readNat (m : Memory) (a : UInt32) (width : Nat) : Except MemoryError Nat := do
  let bytes ← m.read a width
  pure (littleEndian bytes)

/-- The byte at an address. -/
def readU8 (m : Memory) (a : UInt32) : Except MemoryError UInt8 := do
  pure (← m.readNat a 1).toUInt8

/-- The halfword at an address. -/
def readU16 (m : Memory) (a : UInt32) : Except MemoryError UInt16 := do
  pure (← m.readNat a 2).toUInt16

/-- The word at an address. -/
def readU32 (m : Memory) (a : UInt32) : Except MemoryError UInt32 := do
  pure (← m.readNat a 4).toUInt32

end Memory

end Cartridge
