/-!
# GameView — what a script may ask about the running game

Every query has an answer for a game of which nothing is known.
-/

namespace Cartridge

/-- The answers of a game to the queries of scripts. -/
structure GameView where
  /-- The address of a standard script. -/
  standardScript? : UInt8 → Option UInt32 := fun _ => none
  /-- The number of options in a list. -/
  optionCount? : UInt8 → Option Nat := fun _ => none
  /-- How many of an item the bag holds. -/
  itemCount : UInt16 → UInt16 := fun _ => 0
  money : UInt32 := 0
  partySize : UInt8 := 1
  /-- The first party slot that knows a move. -/
  moveSlot? : UInt16 → Option UInt8 := fun _ => none
  /-- Zero for male, one for female. -/
  gender : UInt8 := 0
  position? : Option (UInt16 × UInt16) := none
  /-- The flag that hides a person of a map, by bank, map and person. -/
  personFlag? : UInt8 → UInt8 → UInt8 → Option UInt16 := fun _ _ _ => none
  /-- The value of a flag. -/
  flag? : UInt16 → Option Bool := fun _ => none
  /-- The names of moves, where the game has a table of them. -/
  moveNames? : Option (UInt16 → Option String) := none
  /-- The number drawn below a bound, once a script has run some instructions and taken some
  answers, both newest first. -/
  draw : List UInt32 → List UInt8 → UInt16 → UInt16 := fun _ _ _ => 0
  /-- A draw stays below its bound. -/
  draw_lt : ∀ history answered bound, 0 < bound → draw history answered bound < bound := by
    intro _ _ _ h; exact h

namespace GameView

/-- A game of which nothing is known. -/
def unknown : GameView := {}

/-- The name of a move; a game without a table names none. -/
def moveName? (g : GameView) (move : UInt16) : Option String :=
  g.moveNames?.bind (· move)

end GameView

end Cartridge
