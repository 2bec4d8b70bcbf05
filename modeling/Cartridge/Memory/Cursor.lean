import Cartridge.Memory.Basic

/-!
# Cursor — reading numbers one after another

A `Cursor` computation carries the address of the next unread byte, which wraps at the top of the
address space.  A failing read leaves no new position, so the caller still holds the old one.
-/

namespace Cartridge

/-- A sequential read from a position that it moves forward. -/
abbrev Cursor := StateT UInt32 (Except MemoryError)

namespace Cursor

variable (m : Memory)

/-- The number in the next `width` bytes. -/
def nat (width : Nat) : Cursor Nat := fun a =>
  match m.readNat a width with
  | .error e => .error e
  | .ok n => .ok (n, a + width.toUInt32)

/-- The next byte. -/
def u8 : Cursor UInt8 := do
  return (← nat m 1).toUInt8

/-- The next halfword. -/
def u16 : Cursor UInt16 := do
  return (← nat m 2).toUInt16

/-- The next word. -/
def u32 : Cursor UInt32 := do
  return (← nat m 4).toUInt32

/-- The next word in two's complement. -/
def i32 : Cursor Int32 := do
  return (← u32 m).toInt32

/-- Moves past `count` bytes without looking at them. -/
def skip (count : UInt32) : Cursor Unit :=
  modify (· + count)

/-- The result of a sequential read that starts at `a`. -/
def readAt {α : Type} (c : Cursor α) (a : UInt32) : Except MemoryError α :=
  c.run' a

end Cursor

end Cartridge
