import Cartridge.Route.Border
import Cartridge.World.Basic

/-!
# Edge — places of the world and the hops between them

A hop leads over a border or through a warp to another map, or to a person or a cell of the same
map.  Hops that lead nowhere are left out.
-/

namespace Cartridge

/-- A place in the world: a cell of a map. -/
structure Spot where
  cell : Cell
  map : MapId
deriving DecidableEq, Hashable

/-- A hop, seen from the place where it starts. -/
inductive Edge where
  /-- Walks onto the exit and over the border. -/
  | connection (exit : Cell) (connection : Connection)
  /-- Walks onto a warp of the map. -/
  | warp (index : Nat) (warp : Warp)
  /-- Walks next to a person. -/
  | person (person : Person)
  /-- Walks onto a cell. -/
  | position (cell : Cell)
deriving DecidableEq, Hashable

/-- A hop between two places. -/
structure RouteStep where
  start : Spot
  edge : Edge
  finish : Spot
deriving DecidableEq

/-- The hops over a border at some of its exits. -/
def Connection.crossings (c : Connection) (neighbor : Map) (exits : List Cell) :
    List (Edge × Spot) :=
  exits.filterMap fun exit =>
    (c.entry? neighbor exit).map fun entry => (.connection exit c, ⟨entry, c.target⟩)

/-- The hop through a warp, if the warp it leads to exists and leads back to one that exists. -/
def World.warpCrossing? (w : World) (m : Map) (index : Nat) (warp : Warp) :
    Option (Edge × Spot) := do
  let target ← w.map? warp.target
  let arrival ← target.warps[warp.arrival.toNat]?
  if arrival.arrival.toNat < m.warps.size then
    some (.warp index warp, ⟨arrival.cell, warp.target⟩)
  else none

end Cartridge
