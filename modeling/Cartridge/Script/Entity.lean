import Cartridge.Script.Listing
import Cartridge.Script.Run
import Std.Data.TreeSet

/-!
# ScriptEntity — a script of a map with all its outcomes

An entity is explored once, from a state in which only the person talked to is known, and keeps
every outcome.  It can be replayed on a real state.
-/

namespace Cartridge

/-- A script and what exploring it has found. -/
structure ScriptEntity where
  address : UInt32
  kind : ScriptKind
  index : Nat
  /-- The map that the script was asked for on; a standard script runs on any. -/
  home : MapId
  /-- Every outcome of the exploration. -/
  explored : List Context
  /-- The flags that some outcome reads, in the order in which they come up. -/
  inputFlags : List UInt16
  /-- The flags that some outcome writes, in the order in which they come up. -/
  outputFlags : List UInt16
  /-- The addresses of all instructions that some outcome runs. -/
  addresses : Std.TreeSet UInt32

namespace ScriptEntity

/-- The state from which a script is explored. -/
def initial (address : UInt32) (kind : ScriptKind) (home : MapId) (localId? : Option UInt8) :
    Context :=
  let c := Context.blank address
  let c := if kind = .standard then c else { c with location? := some home }
  match localId? with
  | some id => c.setVar lastTalkedVar id.toUInt16
  | none => c

/-- The flags among some accesses. -/
def flagsOf (accesses : List Access) : List UInt16 :=
  accesses.filterMap fun
    | .flag id => some id
    | _ => none

/-- The flags of all outcomes in the order in which they come up, each once. -/
def gatherFlags (accesses : Context → List Access) (outcomes : List Context) : List UInt16 :=
  (outcomes.foldl (fun found c =>
    (flagsOf (accesses c)).foldl (fun found id => if found.contains id then found else id :: found)
      found) []).reverse

/-- Explores a script. -/
def explore (I : Interpreter) (address : UInt32) (kind : ScriptKind) (index : Nat) (home : MapId)
    (localId? : Option UInt8) : Except ScriptError ScriptEntity :=
  match I.explore (initial address kind home localId?) with
  | .error e => .error e
  | .ok explored =>
    .ok {
      address, kind, index, home, explored
      inputFlags := gatherFlags (·.inputs.inOrder) explored
      outputFlags := gatherFlags (·.outputs.inOrder) explored
      addresses := explored.foldl (fun found c => c.history.foldl (·.insert ·) found) {} }

variable (e : ScriptEntity) (I : Interpreter)

/-- The state from which a replay starts: the script's own address, and its map unless the state
already stands on one. -/
def replayFrom (c? : Option Context) : Context :=
  let c := (c?.getD (.blank e.address)).goto e.address
  if c.location?.isNone && e.kind != .standard then { c with location? := some e.home } else c

/-- Runs the script on a real state, or on a blank one. -/
def execute (c? : Option Context) : Except ScriptError (List Context) :=
  I.execute (e.replayFrom c?)

/-- The listing of the script. -/
def print : String :=
  Listing.print I.memory I.game.moveName? e.address

/-- Whether some outcome runs the instruction at an address. -/
def contains (a : UInt32) : Bool :=
  e.addresses.contains a

/-- The last instruction of some outcome that ends right before an address. -/
def instructionBefore? (next : UInt32) : Option Instruction :=
  ((e.addresses.toList.filter (· < next)).reverse.filterMap fun a =>
    (Instruction.decode I.memory a).toOption).find? (·.next == next)

/-- The answers that lead to the first outcome that writes something. -/
def choicesFor? (a : Access) : Option (List UInt8) :=
  (e.explored.find? (·.outputs.contains a)).map (·.choices)

/-- Whether some outcome writes something. -/
def produces (a : Access) : Bool :=
  e.explored.any (·.outputs.contains a)

end ScriptEntity

end Cartridge
