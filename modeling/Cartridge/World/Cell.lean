/-!
# Cell — coordinates on a map and the four directions
-/

namespace Cartridge

/-- A map, by bank and number. -/
structure MapId where
  bank : UInt8
  map : UInt8
deriving DecidableEq, Hashable

/-- A position on a map; `x` grows to the right and `y` downwards. -/
structure Cell where
  x : Int
  y : Int
deriving DecidableEq, Hashable

/-- A direction on a map. -/
inductive Direction where
  | down | up | left | right
deriving DecidableEq

namespace Direction

/-- One step in the direction. -/
def delta : Direction → Cell
  | down => ⟨0, 1⟩
  | up => ⟨0, -1⟩
  | left => ⟨-1, 0⟩
  | right => ⟨1, 0⟩

/-- The directions in the order in which moves are tried. -/
def inOrder : List Direction :=
  [up, down, left, right]

end Direction

namespace Cell

/-- The neighbouring cell in a direction. -/
def move (c : Cell) (d : Direction) : Cell :=
  ⟨c.x + d.delta.x, c.y + d.delta.y⟩

/-- The number of steps between two cells when nothing is in the way. -/
def steps (a b : Cell) : Int :=
  (a.x - b.x).natAbs + (a.y - b.y).natAbs

end Cell

end Cartridge
