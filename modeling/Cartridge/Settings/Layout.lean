/-!
# Layout — where the game keeps its structures

Addresses are absolute; offsets count from the save block they belong to.
-/

namespace Cartridge

/-- Addresses, offsets and counts of the game's structures. -/
structure Layout where
  /-- Holds the address of the first save block: flags, variables, bag. -/
  saveBlock1 : UInt32 := 0x03005008
  /-- Holds the address of the second save block: gender, encryption key. -/
  saveBlock2 : UInt32 := 0x0300500C
  flagsOffset : UInt32 := 0xEE0
  varsOffset : UInt32 := 0x1000
  moneyOffset : UInt32 := 0x290
  /-- Where the second save block holds the encryption key. -/
  keyOffset : UInt32 := 0xF20
  /-- Entries of an item pointer and a capacity. -/
  bagPockets : UInt32 := 0x0203988C
  bagPocketCount : UInt32 := 5
  genderOffset : UInt32 := 0x08
  standardScripts : UInt32 := 0x08160450
  standardScriptCount : UInt8 := 10
  optionLists : UInt32 := 0x083E04B0
  optionListCount : UInt8 := 0x40
  mapBanks : UInt32 := 0x083526A8
  /-- Pointers to the names of regions, by a map's label. -/
  mapNames : UInt32 := 0x083F1CAC
  objects : UInt32 := 0x02036E38
  objectCount : UInt32 := 16
  playerState : UInt32 := 0x0203707A
  partyCount : UInt32 := 0x02024029
  /-- The first party member. -/
  partyData : UInt32 := 0x02024284
  moveNames : UInt32 := 0x08247094
  moveNameLength : UInt32 := 13
  moveCount : UInt32 := 355
deriving DecidableEq

end Cartridge
