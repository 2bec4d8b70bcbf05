import Cartridge.Memory.Cursor
import Cartridge.Settings.Layout
import Cartridge.World.Cell

/-!
# Object — the live objects of the overworld and the snapshot of a frame

`Overworld.refresh` reads the object table at most once per frame.  The objects are in place before
the state of the player is read, so a failure of that read leaves the new objects standing.
-/

namespace Cartridge

/-- The direction that a stored number stands for. -/
def Direction.ofCode? (code : UInt16) : Option Direction :=
  if code = 0 then none
  else [Direction.down, .up, .left, .right][code.toNat - 1]?

/-- What the player is doing. -/
inductive PlayerState where
  | still | turning | walking
  | other (code : UInt8)
deriving DecidableEq

namespace PlayerState

/-- The state that a stored byte stands for. -/
def ofByte (byte : UInt8) : PlayerState :=
  [still, turning, walking][byte.toNat]?.getD (other byte)

end PlayerState

/-- A live object: the player, a person, an item. -/
structure Object where
  flags : UInt8
  picture : UInt8
  movementType : UInt16
  localId : UInt8
  home : MapId
  /-- The cell it is walking to. -/
  destination : Cell
  /-- The cell it is drawn on. -/
  current : Cell
  facing? : Option Direction
deriving DecidableEq

namespace Object

/-- The number of bytes of one entry of the object table. -/
def size : Nat := 0x24

/-- Stored coordinates are larger than map coordinates by this much. -/
def bias : Int := 7

/-- A stored pair of coordinates. -/
def storedCell (m : Memory) : Cursor Cell := do
  let x ← Cursor.u16 m
  let y ← Cursor.u16 m
  return ⟨x.toNat - bias, y.toNat - bias⟩

/-- One entry of the object table. -/
def entry (m : Memory) : Cursor Object := do
  Cursor.skip 1
  let flags ← Cursor.u8 m
  Cursor.skip 3
  let picture ← Cursor.u8 m
  let movementType ← Cursor.u16 m
  let localId ← Cursor.u8 m
  let map ← Cursor.u8 m
  let bank ← Cursor.u8 m
  Cursor.skip 5
  let destination ← storedCell m
  let current ← storedCell m
  Cursor.skip 8
  let facing ← Cursor.u16 m
  return {
    flags, picture, movementType, localId, home := ⟨bank, map⟩, destination, current,
    facing? := Direction.ofCode? facing }

/-- The object at an address. -/
def decode (m : Memory) (a : UInt32) : Except MemoryError Object :=
  (entry m).readAt a

/-- Whether the entry is unused. -/
def isEmpty (o : Object) : Bool :=
  o.home == ⟨0, 0⟩

end Object

/-- The objects of the frame that was read last; the first one is the player. -/
structure Overworld where
  frame? : Option Nat := none
  objects : Array Object := #[]
  playerState? : Option PlayerState := none
deriving DecidableEq

namespace Overworld

/-- The objects from entry `i` on behind those read so far. -/
def collectObjects (m : Memory) (layout : Layout) (soFar : Array Object) (i : Nat) :
    (count : Nat) → Except MemoryError (Array Object)
  | 0 => .ok soFar
  | count + 1 =>
    match Object.decode m (layout.objects + (Object.size * i).toUInt32) with
    | .ok o => collectObjects m layout (soFar.push o) (i + 1) count
    | .error e => .error e

/-- Reads the objects and the player's state for a frame, unless that frame was read already, and
says whether it read them. -/
def refresh (w : Overworld) (frame : Nat) (m : Memory) (layout : Layout) :
    Overworld × Except MemoryError Bool :=
  if w.frame? = some frame then (w, .ok false)
  else
    match collectObjects m layout #[] 0 layout.objectCount.toNat with
    | .error e => (w, .error e)
    | .ok objects =>
      match m.readU8 layout.playerState with
      | .error e => ({ w with objects }, .error e)
      | .ok byte =>
        ({ frame? := some frame, objects, playerState? := some (.ofByte byte) }, .ok true)

/-- The player. -/
def player? (w : Overworld) : Option Object :=
  w.objects[0]?

/-- The objects behind the player up to the first unused entry. -/
def npcs (w : Overworld) : List Object :=
  (w.objects.toList.drop 1).takeWhile (!·.isEmpty)

/-- The cell on which a person of a map is drawn. -/
def positionOf? (w : Overworld) (home : MapId) (localId : UInt8) : Option Cell :=
  (w.npcs.find? fun o => o.home == home && o.localId == localId).map (·.current)

end Overworld

end Cartridge
