import Cartridge.World.Cell

/-!
# Tile — what one cell of a map is made of
-/

namespace Cartridge

/-- A cell's collision status and the behaviour of its tile. -/
structure Tile where
  status : UInt8
  behavior : UInt16
deriving DecidableEq

namespace Tile

/-! ### Behaviours that matter for walking -/

/-- Tall grass, which has a walking cost of its own. -/
def tallGrass : UInt16 := 0x0202

/-- The tile of a counter, over which people can be talked to. -/
def counter : UInt16 := 0x80

/-- A door, which pushes a player who stands on it downwards. -/
def door : UInt16 := 0x69

/-- The ledge that is jumped over in a direction. -/
def ledge : Direction → UInt16
  | .right => 0x38
  | .left => 0x39
  | .up => 0x3A
  | .down => 0x3B

/-- Escalators, which carry the player off before they can be stood on. -/
def escalators : List UInt16 :=
  [0x61, 0x6B]

/-- The direction in which a ledge is jumped over. -/
def ledge? (behavior : UInt16) : Option Direction :=
  [Direction.right, .left, .up, .down].find? (ledge · == behavior)

/-- The direction in which a warp pushes a player who stands on it. -/
def push? (behavior : UInt16) : Option Direction :=
  if behavior = door ∨ behavior = 0x60 ∨ behavior = 0x64 then some .down
  else if behavior = 0x62 then some .left
  else if behavior = 0x63 then some .right
  else if behavior = 0x65 then some .up
  else none

/-! ### Tiles -/

/-- Plain ground. -/
def ground : Tile := ⟨0x0C, 0⟩

/-- A cell that cannot be entered. -/
def wall : Tile := ⟨0x01, 0⟩

/-- Ground with a behaviour. -/
def withBehavior (behavior : UInt16) : Tile :=
  ⟨0x0C, behavior⟩

/-- Whether the tile can be walked on or jumped over. -/
def isWalkable (t : Tile) : Bool :=
  [0x0C, 0x00, 0x10].contains t.status && !escalators.contains t.behavior

/-- Whether the player can stand on the tile. -/
def isStandable (t : Tile) : Bool :=
  t.isWalkable && (ledge? t.behavior).isNone

/-- The tile that a character of a text grid stands for. -/
def ofChar : Char → Tile
  | '.' => ground
  | '>' => withBehavior (ledge .right)
  | '<' => withBehavior (ledge .left)
  | '^' => withBehavior (ledge .up)
  | 'v' => withBehavior (ledge .down)
  | 'g' => withBehavior tallGrass
  | 'c' => ⟨0x01, counter⟩
  | 'd' => withBehavior door
  | _ => wall

end Tile

end Cartridge
