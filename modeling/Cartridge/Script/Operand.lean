/-!
# Operand — the formats of script operands

A format fixes how many bytes an operand takes and whether a script variable may stand in for it.
-/

namespace Cartridge

/-- The format of one operand of a script command. -/
inductive Operand where
  | byte | word | dword
  /-- An address. -/
  | pointer
  /-- The id of a variable. -/
  | var
  /-- The id of a flag. -/
  | flag
  /-- The number of a bank. -/
  | bank
  /-- The number of a text buffer. -/
  | buffer
  | hidden
  /-- An address, or a bank when below four. -/
  | pointerOrBank
  /-- An address, or the first bank when zero. -/
  | pointerOrFirstBank
  /-- The id of a flag, or of a variable that holds it. -/
  | flagOrVar
  /-- A word, or the id of a variable that holds it. -/
  | wordOrVar
  /-- A byte stored as a word, or the id of a variable that holds it. -/
  | byteOrVar
deriving DecidableEq

namespace Operand

/-- The number of bytes the operand takes. -/
def size : Operand → Nat
  | byte | bank | buffer | hidden => 1
  | word | var | flag | flagOrVar | wordOrVar | byteOrVar => 2
  | dword | pointer | pointerOrBank | pointerOrFirstBank => 4

/-- Whether the operand may name a variable that is looked up when the command runs. -/
def mayBeVar : Operand → Bool
  | flagOrVar | wordOrVar | byteOrVar => true
  | _ => false

end Operand

end Cartridge
