import Cartridge.Script.Step
import Cartridge.Settings.Layout
import Cartridge.Walk.Graph

/-!
# Section — the named settings of the program

A section is a record of named numbers.  Each setting knows its name, the numbers it can hold and
how to read and write it in its section; the order of a section's settings is part of its format.
-/

namespace Cartridge

/-- A named whole number in a section `σ`. -/
structure Setting (σ : Type) where
  name : String
  /-- All numbers below the bound can be held. -/
  bound : Nat
  get : σ → Nat
  set : σ → Nat → σ

namespace Setting

variable {σ : Type}

/-- A setting of 32 bits. -/
def word (name : String) (get : σ → UInt32) (set : σ → UInt32 → σ) : Setting σ where
  name := name
  bound := UInt32.size
  get s := (get s).toNat
  set s n := set s n.toUInt32

/-- A setting of 8 bits. -/
def byte (name : String) (get : σ → UInt8) (set : σ → UInt8 → σ) : Setting σ where
  name := name
  bound := UInt8.size
  get s := (get s).toNat
  set s n := set s n.toUInt8

/-- A count of 64 bits. -/
def count (name : String) (get : σ → Nat) (set : σ → Nat → σ) : Setting σ where
  name := name
  bound := UInt64.size
  get := get
  set := set

end Setting

open Setting in
/-- The settings of the layout. -/
def Layout.settings : List (Setting Layout) :=
  [word "save_block1_ptr" (·.saveBlock1) fun l n => { l with saveBlock1 := n },
   word "save_block2_ptr" (·.saveBlock2) fun l n => { l with saveBlock2 := n },
   word "flags_offset" (·.flagsOffset) fun l n => { l with flagsOffset := n },
   word "vars_offset" (·.varsOffset) fun l n => { l with varsOffset := n },
   word "money_offset" (·.moneyOffset) fun l n => { l with moneyOffset := n },
   word "encryption_key_offset" (·.keyOffset) fun l n => { l with keyOffset := n },
   word "bag_pocket_table" (·.bagPockets) fun l n => { l with bagPockets := n },
   word "bag_pocket_count" (·.bagPocketCount) fun l n => { l with bagPocketCount := n },
   word "player_gender_offset" (·.genderOffset) fun l n => { l with genderOffset := n },
   word "std_scripts_table" (·.standardScripts) fun l n => { l with standardScripts := n },
   byte "std_scripts_count" (·.standardScriptCount) fun l n => { l with standardScriptCount := n },
   word "multichoice_table" (·.optionLists) fun l n => { l with optionLists := n },
   byte "multichoice_count" (·.optionListCount) fun l n => { l with optionListCount := n },
   word "map_banks_table" (·.mapBanks) fun l n => { l with mapBanks := n },
   word "map_names_table" (·.mapNames) fun l n => { l with mapNames := n },
   word "ow_objects" (·.objects) fun l n => { l with objects := n },
   word "ow_object_count" (·.objectCount) fun l n => { l with objectCount := n },
   word "player_state" (·.playerState) fun l n => { l with playerState := n },
   word "party_count" (·.partyCount) fun l n => { l with partyCount := n },
   word "party_data" (·.partyData) fun l n => { l with partyData := n },
   word "move_names" (·.moveNames) fun l n => { l with moveNames := n },
   word "move_name_len" (·.moveNameLength) fun l n => { l with moveNameLength := n },
   word "move_count" (·.moveCount) fun l n => { l with moveCount := n }]

open Setting in
/-- The settings of script runs. -/
def RunLimits.settings : List (Setting RunLimits) :=
  [count "max_steps" (·.maxSteps) fun l n => { l with maxSteps := n },
   count "max_contexts" (·.maxContexts) fun l n => { l with maxContexts := n }]

/-- The settings of route searches. -/
structure RouteSettings where
  /-- The candidates that a search may look at. -/
  maxCandidates : Nat := 20000
deriving DecidableEq

open Setting in
/-- The settings of route searches by name. -/
def RouteSettings.settings : List (Setting RouteSettings) :=
  [count "max_candidates" (·.maxCandidates) fun l n => { l with maxCandidates := n }]

/-- All settings. -/
structure Settings where
  layout : Layout := {}
  explore : RunLimits := {}
  walk : WalkSettings := {}
  route : RouteSettings := {}
deriving DecidableEq

end Cartridge
