import Cartridge.Game.View
import Cartridge.World.Map

/-!
# FixedGame — a game view with given answers
-/

namespace Cartridge

/-- Answers for the queries of scripts; what is not listed is not known. -/
structure FixedGame where
  standardScripts : Array UInt32
  optionCounts : Array Nat
  /-- Items and how many of them the bag holds; the first entry of an item counts. -/
  items : List (UInt16 × UInt16)
  money : UInt32
  partySize : UInt8
  maps : List Map

namespace FixedGame

/-- The flag that hides a person, from the first map with the id. -/
def personFlag? (g : FixedGame) (bank map localId : UInt8) : Option UInt16 := do
  let m ← g.maps.find? (·.id == ⟨bank, map⟩)
  let p ← m.persons.find? (·.localId == localId)
  return p.flag

/-- The view with these answers. -/
def view (g : FixedGame) : GameView where
  standardScript? i := g.standardScripts[i.toNat]?
  optionCount? i := g.optionCounts[i.toNat]?
  itemCount item := ((g.items.find? (·.1 == item)).map (·.2)).getD 0
  money := g.money
  partySize := g.partySize
  personFlag? := g.personFlag?

end FixedGame

end Cartridge
