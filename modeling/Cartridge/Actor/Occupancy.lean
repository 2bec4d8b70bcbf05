import Cartridge.Actor.Object
import Cartridge.Game.View
import Cartridge.World.Map

/-!
# Occupancy — the cells that actors block
-/

namespace Cartridge

/-- The blocked cells of a map. -/
structure Occupancy where
  cells : List Cell

namespace Occupancy

/-- No cell is blocked. -/
def free : Occupancy := ⟨[]⟩

/-- Whether a cell is blocked. -/
def blocks (o : Occupancy) (c : Cell) : Bool :=
  o.cells.contains c

/-- The cells of the people who are visible and never move, the cells that live objects of the map
are walking to, and the cells that scripted movement has claimed; each of them once. -/
def build (m : Map) (w : Overworld) (g : GameView) (pending : List Cell) : Occupancy :=
  let people := (m.persons.toList.filter fun p =>
    p.isVisible (fun flag => (g.flag? flag).getD false) && p.isStatic).map (·.cell)
  let objects := (w.npcs.filter (·.home == m.id)).map (·.destination)
  ⟨(people ++ objects ++ pending).eraseDups⟩

end Occupancy

end Cartridge
