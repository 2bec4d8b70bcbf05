import Cartridge.World.Cell

/-!
# Event — people, warps, borders and scripts of a map
-/

namespace Cartridge

/-- How a map borders on another one. -/
inductive ConnectionKind where
  | none | down | up | left | right | dive | emerge
  | unknown (code : UInt32)
deriving DecidableEq, Hashable

namespace ConnectionKind

/-- The kind that a stored number stands for. -/
def ofCode (code : UInt32) : ConnectionKind :=
  [none, down, up, left, right, dive, emerge][code.toNat]?.getD (unknown code)

end ConnectionKind

/-- A border with another map. -/
structure Connection where
  kind : ConnectionKind
  /-- How far the neighbour is shifted along the border. -/
  offset : Int
  target : MapId
deriving DecidableEq, Hashable

/-- A place that leads to a place of the same kind on another map. -/
structure Warp where
  x : UInt16
  y : UInt16
  level : UInt8
  /-- The number of the warp it leads to on the target map. -/
  arrival : UInt8
  target : MapId
deriving DecidableEq, Hashable

namespace Warp

/-- Where the warp is. -/
def cell (w : Warp) : Cell :=
  ⟨w.x.toNat, w.y.toNat⟩

end Warp

/-- Whether a person with this kind of movement never leaves its cell. -/
def isStaticMovement (movementType : UInt8) : Bool :=
  let n := movementType.toNat
  n == 0 || n == 1 || (7 ≤ n && n ≤ 10) || (13 ≤ n && n ≤ 24) || (64 ≤ n && n ≤ 79)

/-- A person of a map. -/
structure Person where
  /-- The number by which scripts name the person. -/
  localId : UInt8
  picture : UInt8
  x : UInt16
  y : UInt16
  level : UInt8
  movementType : UInt8
  movement : UInt8
  trainer : UInt8
  view : UInt16
  script : UInt32
  /-- The flag that hides the person; zero for none. -/
  flag : UInt16
deriving DecidableEq, Hashable

namespace Person

/-- Where the person is when the map is entered. -/
def cell (p : Person) : Cell :=
  ⟨p.x.toNat, p.y.toNat⟩

/-- Whether the person never leaves its cell. -/
def isStatic (p : Person) : Bool :=
  isStaticMovement p.movementType

/-- Whether the person can be seen, given which flags are set. -/
def isVisible (p : Person) (flagSet : UInt16 → Bool) : Bool :=
  p.flag == 0 || !flagSet p.flag

end Person

/-- A sign with a script. -/
structure Sign where
  x : UInt16
  y : UInt16
  level : UInt8
  kind : UInt8
  script : UInt32
deriving DecidableEq

/-- A script that runs when the player steps on a cell while a variable has a value. -/
structure Trigger where
  x : UInt16
  y : UInt16
  level : UInt8
  var : UInt16
  value : UInt16
  script : UInt32
deriving DecidableEq

/-- When the game runs a script of a map. -/
inductive MapScriptKind where
  | setTiles | loadCheck | enterSilently | loadCheckLate | enter | unknown | enterLate
deriving DecidableEq

namespace MapScriptKind

/-- The kind that a stored byte stands for. -/
def ofByte (byte : UInt8) : MapScriptKind :=
  [unknown, setTiles, loadCheck, enterSilently, loadCheckLate, enter, unknown,
    enterLate][byte.toNat]?.getD unknown

/-- Whether an entry of this kind points to a guard and its script instead of a script. -/
def isGuarded : MapScriptKind → Bool
  | loadCheck | loadCheckLate => true
  | _ => false

end MapScriptKind

/-- A script of a map, with the variable and the value that guard it where it is guarded. -/
structure MapScript where
  kind : MapScriptKind
  script : UInt32
  var : UInt16 := 0
  value : UInt16 := 0
deriving DecidableEq

end Cartridge
