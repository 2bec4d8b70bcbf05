import Cartridge.Script.Entity
import Cartridge.World.Basic

/-!
# ScriptCache — every script explored at most once

A script is named by its table, its number there and its map; standard scripts are the same on every
map.  A script that cannot be found or explored leaves the cache as it is.
-/

namespace Cartridge

/-- The name of a script. -/
structure ScriptKey where
  kind : ScriptKind
  index : Nat
  home : MapId
deriving DecidableEq

namespace ScriptKey

/-- The key under which a script is kept: a standard script belongs to no map. -/
def canonical (k : ScriptKey) : ScriptKey :=
  if k.kind = .standard then { k with home := ⟨0, 0⟩ } else k

/-- The address of a script and the person it belongs to, if it exists and has an address. -/
def locate? (k : ScriptKey) (w : World) (g : GameView) : Option (UInt32 × Option UInt8) :=
  if k.kind = .standard then
    if k.index < 256 then (g.standardScript? k.index.toUInt8).map (·, none) else none
  else do
    let m ← w.map? k.home
    let found ←
      match k.kind with
      | .person => (m.persons[k.index]?).map fun p => (p.script, some p.localId)
      | .sign => (m.signs[k.index]?).map fun s => (s.script, none)
      | .generic => (m.triggers[k.index]?).map fun t => (t.script, none)
      | .map => (m.scripts[k.index]?).map fun s => (s.script, none)
      | .standard => none
    if found.1 = 0 then none else some found

end ScriptKey

/-- The scripts explored so far, in the order in which they were first asked for. -/
structure ScriptCache where
  entries : List (ScriptKey × ScriptEntity) := []

namespace ScriptCache

/-- A cache without scripts. -/
def empty : ScriptCache := {}

variable (cache : ScriptCache)

/-- The number of scripts. -/
def size : Nat :=
  cache.entries.length

/-- The script kept under a key. -/
def find? (k : ScriptKey) : Option ScriptEntity :=
  (cache.entries.find? (·.1 == k)).map (·.2)

/-- The scripts. -/
def entities : List ScriptEntity :=
  cache.entries.map (·.2)

/-- A script, explored if it has not been asked for before, and the cache that keeps it. -/
def get (w : World) (I : Interpreter) (k : ScriptKey) :
    Except ScriptError ScriptEntity × ScriptCache :=
  match cache.find? k.canonical with
  | some e => (.ok e, cache)
  | none =>
    match k.locate? w I.game with
    | none => (.error (.noSuchScript k.kind k.index k.home), cache)
    | some (address, localId?) =>
      match ScriptEntity.explore I address k.kind k.index k.home localId? with
      | .error e => (.error e, cache)
      | .ok e => (.ok e, ⟨cache.entries ++ [(k.canonical, e)]⟩)

/-- The native routine that heals the party. -/
def healRoutine : UInt16 := 0

/-- Whether talking to a person of a map can heal the party. -/
def isHealer (w : World) (I : Interpreter) (home : MapId) (index : Nat) : Bool × ScriptCache :=
  match cache.get w I ⟨.person, index, home⟩ with
  | (.ok e, cache) => (e.produces (.special healRoutine), cache)
  | (.error _, cache) => (false, cache)

/-- The scripts of which some outcome runs the instruction at an address. -/
def containing (a : UInt32) : List ScriptEntity :=
  cache.entities.filter (·.contains a)

end ScriptCache

end Cartridge
