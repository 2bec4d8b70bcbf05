import Cartridge.Memory.Basic
import Cartridge.Script.Location
import Cartridge.Settings.Layout
import Cartridge.World.Cell

/-!
# Context — the state of one branch of a script

A context holds the registers, the call stack and the two values compared last, and logs what the
branch has read, written, answered and run.  A register is *determined* when the branch itself has
produced its value; the others have whatever value the game happens to hold.
-/

namespace Cartridge

/-- Why a branch of a script is over. -/
inductive ExitReason where
  /-- It ended by itself. -/
  | finished
  /-- It returned with no call left. -/
  | stackUnderflow
  /-- It handed over to code outside the script. -/
  | killed
  /-- It came back to a decision that it had met with the same calls before. -/
  | revisit
deriving DecidableEq

namespace ExitReason

/-- The name of the reason in reports. -/
def label : ExitReason → String
  | finished => "End"
  | stackUnderflow => "StackUnderflow"
  | killed => "Killed"
  | revisit => "Revisit"

end ExitReason

/-- A decision met at an address with some calls to return from.  Two decisions mostly differ in
their address or in how deep the calls are nested, so these are compared before the calls. -/
structure Visit where
  address : UInt32
  depth : Nat
  stack : List UInt32
deriving DecidableEq

/-- The state of one branch of a script. -/
structure Context where
  /-- The address of the next instruction. -/
  pc : UInt32
  registers : Registers
  /-- The registers whose value the branch has produced. -/
  determined : Marks
  /-- The left value of the last comparison. -/
  left : UInt32
  /-- The right value of the last comparison. -/
  right : UInt32
  /-- Whether the branch has produced both compared values. -/
  comparisonKnown : Bool
  /-- Where calls return to, innermost first. -/
  stack : List UInt32
  /-- What the branch has read, newest first. -/
  inputs : AccessLog
  /-- What the branch has written, newest first. -/
  outputs : AccessLog
  /-- The answers the branch has taken, newest first. -/
  answered : List UInt8
  /-- The answers to give at the next prompts. -/
  pending : List UInt8
  /-- The map the script runs on. -/
  location? : Option MapId
  /-- The decisions met so far. -/
  visited : List Visit
  /-- The addresses of the instructions run, newest first. -/
  history : List UInt32
  exit? : Option ExitReason

namespace Context

/-- All zero, about to run the instruction at `pc`. -/
def blank (pc : UInt32) : Context where
  pc := pc
  registers := .zero
  determined := .none
  left := 0
  right := 0
  comparisonKnown := false
  stack := []
  inputs := []
  outputs := []
  answered := []
  pending := []
  location? := none
  visited := []
  history := []
  exit? := none

/-- The addresses of the instructions run, oldest first. -/
def trace (c : Context) : List UInt32 :=
  c.history.reverse

/-- The answers the branch has taken, oldest first. -/
def choices (c : Context) : List UInt8 :=
  c.answered.reverse

/-- Whether the branch is over. -/
def isDone (c : Context) : Bool :=
  c.exit?.isSome

/-- The branch after it is over. -/
def close (c : Context) (reason : ExitReason) : Context :=
  { c with exit? := some reason }

/-- The branch about to run the instruction at `a`. -/
def goto (c : Context) (a : UInt32) : Context :=
  { c with pc := a }

/-- The branch with a call to return from. -/
def push (c : Context) (a : UInt32) : Context :=
  { c with stack := a :: c.stack }

/-- Notes something that is read. -/
def noteInput (c : Context) (a : Access) : Context :=
  { c with inputs := AccessLog.note c.inputs a }

/-- Notes something that is written. -/
def noteOutput (c : Context) (a : Access) : Context :=
  { c with outputs := AccessLog.note c.outputs a }

/-- Whether the branch has produced the current value of what an access names. -/
def isDetermined (c : Context) (a : Access) : Bool :=
  match Location.ofAccess? a with
  | some l => c.determined.get l
  | none => false

/-- Writes a register and says whether its value counts as produced here. -/
def store (c : Context) (l : Location) (value : UInt32) (known : Bool) : Context :=
  { c with
    registers := c.registers.set l value
    determined := c.determined.set l known
    outputs := AccessLog.note c.outputs l.access }

/-- The value of a flag; flags that do not exist are clear. -/
def flag (c : Context) (id : UInt16) : Bool :=
  match Location.flag? id with
  | some i => c.registers.flags.getLsbD i.val
  | none => false

/-- The value of a variable; variables that do not exist are zero. -/
def var (c : Context) (id : UInt16) : UInt16 :=
  match Location.var? id with
  | some i => c.registers.vars.get i
  | none => 0

/-- The value of a bank; banks that do not exist are zero. -/
def bank (c : Context) (id : UInt8) : UInt32 :=
  match Location.bank? id with
  | some i => c.registers.banks.get i
  | none => 0

/-- Writes a flag; a flag that does not exist is left alone. -/
def setFlag (c : Context) (id : UInt16) (value : Bool) : Context :=
  match Location.flag? id with
  | some i => c.store (.flag i) (if value then 1 else 0) true
  | none => c

/-- Writes a variable, with a value that counts as produced here if `known`. -/
def storeVar (c : Context) (id : UInt16) (value : UInt16) (known : Bool) : Context :=
  match Location.var? id with
  | some i => c.store (.var i) value.toUInt32 known
  | none => c

/-- Writes a variable with a value produced here. -/
def setVar (c : Context) (id : UInt16) (value : UInt16) : Context :=
  c.storeVar id value true

/-- Writes a variable with a value that stands in for one the script cannot know. -/
def guessVar (c : Context) (id : UInt16) (value : UInt16) : Context :=
  c.storeVar id value false

/-- Writes a bank; a bank that does not exist is left alone. -/
def setBank (c : Context) (id : UInt8) (value : UInt32) : Context :=
  match Location.bank? id with
  | some i => c.store (.bank i) value true
  | none => c

/-- Notes the variable that an operand names, if it names one. -/
def noteOperand (c : Context) (operand : UInt32) : Context :=
  if (Location.var? operand.toUInt16).isSome then c.noteInput (.var operand.toUInt16) else c

/-- The variable that an operand names, or the operand itself if it names none. -/
def resolve (c : Context) (operand : UInt32) : UInt32 :=
  if (Location.var? operand.toUInt16).isSome then (c.var operand.toUInt16).toUInt32 else operand

/-- Whether a decision has been met before. -/
def hasMet (c : Context) (v : Visit) : Bool :=
  c.visited.any fun w => w.depth == v.depth && w.address == v.address && w.stack == v.stack

theorem hasMet_iff {c : Context} {v : Visit} : c.hasMet v = true ↔ v ∈ c.visited := by
  simp only [hasMet, List.any_eq_true, Bool.and_eq_true, beq_iff_eq]
  constructor
  · rintro ⟨w, hw, ⟨hd, ha⟩, hs⟩
    obtain ⟨address, depth, stack⟩ := w
    obtain ⟨address', depth', stack'⟩ := v
    subst hd ha hs
    exact hw
  · intro h
    exact ⟨v, h, ⟨rfl, rfl⟩, rfl⟩

/-- Notes a decision at an address; nothing if it was met with the same calls before. -/
def visit? (c : Context) (a : UInt32) : Option Context :=
  let visit : Visit := ⟨a, c.stack.length, c.stack⟩
  if c.hasMet visit then none else some { c with visited := visit :: c.visited }

/-- The flags and variables of the save block, if one is loaded. -/
def ofMemory (m : Memory) (layout : Layout) (pc : UInt32) : Except MemoryError Context := do
  let save ← m.readU32 layout.saveBlock1
  if save = 0 then return blank pc
  let flags ← m.readNat (save + layout.flagsOffset) (flagCount / 8)
  let vars ← (List.range savedVarCount).mapM fun i =>
    m.readU16 (save + layout.varsOffset + 2 * i.toUInt32)
  return { blank pc with
    registers := { Registers.zero with
      flags := BitVec.ofNat flagCount flags
      vars := Vector.ofFn fun i => vars[i.val]?.getD 0 } }

/-- Whether two contexts agree in everything; logs and visits are compared as sets. -/
def sameAs (c d : Context) : Bool :=
  c.pc == d.pc && c.registers == d.registers && c.determined == d.determined &&
    c.left == d.left && c.right == d.right && c.comparisonKnown == d.comparisonKnown &&
    c.stack == d.stack && c.inputs.sameAs d.inputs && c.outputs.sameAs d.outputs &&
    c.answered == d.answered && c.pending == d.pending && c.location? == d.location? &&
    c.visited.all (d.visited.contains ·) && d.visited.all (c.visited.contains ·) &&
    c.history == d.history && c.exit? == d.exit?

end Context

end Cartridge
