import Cartridge.World.Event
import Cartridge.World.Tile

/-!
# Map — a grid of tiles with its events

Tiles are stored row by row and looked up by cell; outside the grid there is no tile.
-/

namespace Cartridge

/-- A map of the game. -/
structure Map where
  id : MapId
  name : String := ""
  width : Nat
  height : Nat
  /-- The tiles, row by row. -/
  tiles : Array Tile
  persons : Array Person := #[]
  warps : Array Warp := #[]
  triggers : Array Trigger := #[]
  signs : Array Sign := #[]
  connections : Array Connection := #[]
  scripts : Array MapScript := #[]
deriving DecidableEq

namespace Map

/-- A map without events over some tiles; missing tiles are walls and surplus ones are dropped. -/
def ofTiles (id : MapId) (width height : Nat) (tiles : Array Tile) : Map where
  id := id
  width := width
  height := height
  tiles := tiles.take (width * height) ++ Array.replicate (width * height - tiles.size) Tile.wall

/-- A row of a text grid, cut or filled with walls. -/
def rowTiles (width : Nat) (row : String) : List Tile :=
  (row.toList.map Tile.ofChar).take width ++
    List.replicate (width - row.toList.length) Tile.wall

/-- A map drawn as text.  It is as wide as its longest row is in bytes. -/
def ofRows (id : MapId) (rows : List String) : Map :=
  let width := (rows.map String.utf8ByteSize).foldl max 0
  ofTiles id width rows.length (rows.flatMap (rowTiles width)).toArray

/-- The place of a cell in the row-by-row order. -/
def index? (m : Map) (c : Cell) : Option Nat :=
  if 0 ≤ c.x ∧ 0 ≤ c.y ∧ c.x < m.width ∧ c.y < m.height then
    some (c.y.toNat * m.width + c.x.toNat)
  else none

/-- The tile of a cell. -/
def tile? (m : Map) (c : Cell) : Option Tile :=
  (m.index? c).bind (m.tiles[·]?)

/-- Replaces the tile of a cell; outside the grid nothing changes. -/
def setTile (m : Map) (c : Cell) (t : Tile) : Map :=
  match m.index? c with
  | some i => { m with tiles := m.tiles.setIfInBounds i t }
  | none => m

/-- Whether the tile of a cell can be walked on or jumped over. -/
def isWalkable (m : Map) (c : Cell) : Bool :=
  (m.tile? c).any Tile.isWalkable

/-- The cells of the grid, row by row. -/
def cells (m : Map) : List Cell :=
  (List.range m.height).flatMap fun (y : Nat) =>
    (List.range m.width).map fun (x : Nat) => ⟨(x : Int), (y : Int)⟩

end Map

end Cartridge
