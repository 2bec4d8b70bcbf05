import Cartridge.Route.Search
import Cartridge.Walk.Search

/-!
# Navigator — walking the hops of a route on their maps

A navigator keeps one finder per map and what it was told about the actors there.  Every report
about actors starts a new generation of verdicts.
-/

namespace Cartridge

/-- The finders and the actors of all maps. -/
structure Navigator where
  world : World
  settings : WalkSettings
  finders : Std.HashMap MapId Finder := {}
  occupancies : Std.HashMap MapId Occupancy := {}
  overworld? : Option Overworld := none
  /-- How often it was told about actors. -/
  generation : Nat := 0

namespace Navigator

variable (n : Navigator)

/-- Takes over which cells of a map are blocked. -/
def setOccupancy (id : MapId) (o : Occupancy) : Navigator :=
  { n with occupancies := n.occupancies.insert id o, generation := n.generation + 1 }

/-- Takes over the live objects. -/
def setOverworld (w : Overworld) : Navigator :=
  { n with overworld? := some w, generation := n.generation + 1 }

/-- The finder of a map, as it was left or a new one. -/
def finder? (id : MapId) : Option Finder :=
  match n.finders[id]? with
  | some f => some f
  | none => (n.world.map? id).map (Finder.ofMap · n.settings)

/-- Where a person of a map is: drawn by a live object, or at its place on the map. -/
def actorCell (id : MapId) (p : Person) : Cell :=
  (n.overworld?.bind (·.positionOf? id p.localId)).getD p.cell

/-- The walk that a hop takes on its map. -/
def walk (f : Finder) (start : Spot) (edge : Edge) (blocked : Cell → Bool) :
    Option (List Cell) × Finder :=
  match edge with
  | .connection exit _ => f.searchToConnection start.cell [exit] blocked
  | .warp _ warp => f.searchToWarp start.cell warp.cell blocked
  | .person p => f.searchToActor start.cell (n.actorCell start.map p) blocked
  | .position cell => f.searchTo start.cell cell 0 blocked

/-- The cells of a hop, without the one where it starts. -/
def pathFor (start : Spot) (edge : Edge) : Option (List Cell) × Navigator :=
  match n.finder? start.map with
  | none => (none, n)
  | some f =>
    let occupancy := (n.occupancies[start.map]?).getD Occupancy.free
    let (path?, f) := n.walk f start edge occupancy.blocks
    (path?, { n with finders := n.finders.insert start.map f })

/-- Whether a hop can be walked. -/
def validate (start : Spot) (edge : Edge) : Bool × Navigator :=
  let (path?, n) := n.pathFor start edge
  (path?.isSome, n)

end Navigator

end Cartridge
