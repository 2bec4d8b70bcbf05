import Cartridge.Game.View
import Cartridge.Memory.Cursor
import Cartridge.Memory.Text
import Cartridge.Settings.Layout

/-!
# LiveGame — a game view read from the memory of a running game

What cannot be read counts as unknown.  Money and item counts are stored combined with a key from
the second save block, the moves of a party member with a key of its own.
-/

namespace Cartridge

/-- The memory of a running game and where it keeps its structures. -/
structure LiveGame where
  memory : Memory
  layout : Layout

namespace LiveGame

variable (g : LiveGame)

/-- A byte, where it can be read. -/
def byte? (a : UInt32) : Option UInt8 :=
  (g.memory.readU8 a).toOption

/-- A halfword, where it can be read. -/
def half? (a : UInt32) : Option UInt16 :=
  (g.memory.readU16 a).toOption

/-- A word, where it can be read. -/
def word? (a : UInt32) : Option UInt32 :=
  (g.memory.readU32 a).toOption

/-- The address of the first save block, if one is loaded. -/
def saveBlock1? : Option UInt32 :=
  (g.word? g.layout.saveBlock1).filter (· != 0)

/-- The address of the second save block, if one is loaded. -/
def saveBlock2? : Option UInt32 :=
  (g.word? g.layout.saveBlock2).filter (· != 0)

/-- The key of the save file; zero when it cannot be read. -/
def key : UInt32 :=
  (g.saveBlock2?.bind fun save => g.word? (save + g.layout.keyOffset)).getD 0

/-- The address of a standard script. -/
def standardScript? (i : UInt8) : Option UInt32 :=
  if i < g.layout.standardScriptCount then g.word? (g.layout.standardScripts + 4 * i.toUInt32)
  else none

/-- The number of options in a list: the byte behind the pointer of its entry. -/
def optionCount? (i : UInt8) : Option Nat :=
  if i < g.layout.optionListCount then
    (g.byte? (g.layout.optionLists + 8 * i.toUInt32 + 4)).map (·.toNat)
  else none

/-! ### The bag -/

/-- How many of an item the first slot from `slot` on that holds it has; unreadable slots are
passed over. -/
def slotQuantity? (items : UInt32) (item : UInt16) (slot : Nat) : (count : Nat) → Option UInt16
  | 0 => none
  | count + 1 =>
    let a := items + 4 * slot.toUInt32
    match g.half? a, g.half? (a + 2) with
    | some id, some quantity =>
      if id = item then some quantity else slotQuantity? items item (slot + 1) count
    | _, _ => slotQuantity? items item (slot + 1) count

/-- How many of an item the first pocket from `pocket` on that holds it has; unreadable pockets are
passed over. -/
def pocketQuantity? (item : UInt16) (pocket : Nat) : (count : Nat) → Option UInt16
  | 0 => none
  | count + 1 =>
    let a := g.layout.bagPockets + 8 * pocket.toUInt32
    match g.word? a, g.word? (a + 4) with
    | some items, some capacity =>
      match g.slotQuantity? items item 0 capacity.toNat with
      | some quantity => some quantity
      | none => pocketQuantity? item (pocket + 1) count
    | _, _ => pocketQuantity? item (pocket + 1) count

/-- How many of an item the bag holds. -/
def itemCount (item : UInt16) : UInt16 :=
  match g.pocketQuantity? item 0 g.layout.bagPocketCount.toNat with
  | some quantity => quantity ^^^ g.key.toUInt16
  | none => 0

/-- The player's money. -/
def money : UInt32 :=
  match g.saveBlock1?.bind fun save => g.word? (save + g.layout.moneyOffset) with
  | some stored => stored ^^^ g.key
  | none => 0

/-! ### The party -/

/-- The number of bytes of a party member. -/
def partyMemberSize : Nat := 100

/-- The number of party members; zero when it cannot be read. -/
def partySize : UInt8 :=
  (g.byte? g.layout.partyCount).getD 0

/-- Where the part with the moves comes among the four parts of a party member, for each of the 24
orders of the parts. -/
def movesPart : List Nat :=
  [1, 1, 2, 3, 2, 3, 0, 0, 0, 0, 0, 0, 2, 3, 1, 1, 3, 2, 2, 3, 1, 1, 3, 2]

/-- The four moves of a party member; none for an empty slot. -/
def partyMoves? (slot : Nat) : Option (List UInt16) := do
  let base := g.layout.partyData + (slot * partyMemberSize).toUInt32
  let personality ← g.word? base
  let trainer ← g.word? (base + 4)
  if personality = 0 ∧ trainer = 0 then none
  else
    let key := personality ^^^ trainer
    let part := movesPart[personality.toNat % 24]?.getD 0
    let moves := base + (32 + 12 * part).toUInt32
    let first := (← g.word? moves) ^^^ key
    let second := (← g.word? (moves + 4)) ^^^ key
    return [first.toUInt16, (first >>> 16).toUInt16, second.toUInt16, (second >>> 16).toUInt16]

/-- The first of six party slots that knows a move. -/
def moveSlot? (move : UInt16) : Option UInt8 :=
  ((List.range (min g.partySize.toNat 6)).find? fun slot =>
    ((g.partyMoves? slot).getD []).contains move).map Nat.toUInt8

/-- Zero for male, one for female; zero when it cannot be read. -/
def gender : UInt8 :=
  (g.saveBlock2?.bind fun save => g.byte? (save + g.layout.genderOffset)).getD 0

/-- The player's coordinates: the first two halfwords of the save block. -/
def position? : Option (UInt16 × UInt16) := do
  let save ← g.saveBlock1?
  return (← g.half? save, ← g.half? (save + 2))

/-! ### Flags and names -/

/-- The flag in the first entry from `person` on with the local id, out of `count` entries. -/
def entryFlag? (persons : UInt32) (localId : UInt8) (person : Nat) : (count : Nat) → Option UInt16
  | 0 => none
  | count + 1 =>
    let a := persons + (24 * person).toUInt32
    if g.byte? a = some localId then g.half? (a + 20)
    else entryFlag? persons localId (person + 1) count

/-- The flag that hides a person, found through the bank table. -/
def personFlag? (bank map localId : UInt8) : Option UInt16 := do
  let maps ← g.word? (g.layout.mapBanks + 4 * bank.toUInt32)
  let header ← g.word? (maps + 4 * map.toUInt32)
  let events ← g.word? (header + 4)
  let count ← g.byte? events
  let persons ← g.word? (events + 4)
  g.entryFlag? persons localId 0 count.toNat

/-- The value of a flag: eight flags to a byte, the lowest bit first. -/
def flag? (id : UInt16) : Option Bool := do
  let save ← g.saveBlock1?
  let byte ← g.byte? (save + g.layout.flagsOffset + (id >>> 3).toUInt32)
  return byte.toNat.testBit (id.toNat % 8)

/-- The name of a move. -/
def moveName? (move : UInt16) : Option String :=
  if g.layout.moveCount ≤ move.toUInt32 then none
  else
    let a := g.layout.moveNames + move.toUInt32 * g.layout.moveNameLength
    (g.memory.readText a Glyph.terminator g.layout.moveNameLength.toNat).toOption

/-- The view on the running game. -/
def view : GameView where
  standardScript? := g.standardScript?
  optionCount? := g.optionCount?
  itemCount := g.itemCount
  money := g.money
  partySize := g.partySize
  moveSlot? := g.moveSlot?
  gender := g.gender
  position? := g.position?
  personFlag? := g.personFlag?
  flag? := g.flag?
  moveNames? := if g.layout.moveNames = 0 then none else some g.moveName?

end LiveGame

end Cartridge
