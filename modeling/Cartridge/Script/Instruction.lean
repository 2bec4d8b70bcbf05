import Cartridge.Memory.Cursor
import Cartridge.Memory.Text
import Cartridge.Script.Battle
import Cartridge.Script.Command
import Cartridge.Script.Relation
import Cartridge.Script.Template

/-!
# Instruction — one decoded script command

`Instruction.decode` reads the opcode and its operands at an address; `Instruction.encode` gives the
bytes back.  `text` is the instruction as it stands, `listing` shows texts and move names in its
place.
-/

namespace Cartridge

/-- Why no instruction could be decoded. -/
inductive DecodeError where
  | unknownOpcode (opcode : UInt8) (address : UInt32)
  | memory (e : MemoryError)
deriving DecidableEq

namespace DecodeError

/-- The address of the opcode, or of the bytes that are missing. -/
def address : DecodeError → UInt32
  | unknownOpcode _ a => a
  | memory e => e.address

/-- The wording of the error. -/
def message : DecodeError → String
  | unknownOpcode opcode a =>
    "unknown opcode 0x" ++ hexPadded 2 opcode.toNat ++ " at " ++ addressText a
  | memory e => e.message

end DecodeError

/-- A command at an address with the values of its operands. -/
structure Instruction where
  address : UInt32
  command : Command
  /-- The operand formats in force; a trainer battle has those of its variant. -/
  formats : List Operand
  operands : List UInt32
  /-- The address of the byte after the last operand. -/
  next : UInt32
deriving DecidableEq

namespace Instruction

/-- The operand formats of a command whose opcode stands at `a`. -/
def formatsAt (m : Memory) (c : Command) (a : UInt32) : Except MemoryError (List Operand) :=
  if c.action = .transfer .battle then do
    let kind ← m.readU8 (a + 1)
    pure (BattleKind.ofByte kind).operands
  else pure c.operands

/-- The values of consecutive operands. -/
def readOperands (m : Memory) : List Operand → Cursor (List UInt32)
  | [] => pure []
  | f :: rest => do
    let value ← Cursor.nat m f.size
    let values ← readOperands m rest
    pure (value.toUInt32 :: values)

/-- The instruction at an address. -/
def decode (m : Memory) (a : UInt32) : Except DecodeError Instruction := do
  let opcode ← (m.readU8 a).mapError .memory
  match Command.ofOpcode? opcode with
  | none => throw (.unknownOpcode opcode a)
  | some command =>
    let formats ← (formatsAt m command a).mapError .memory
    let (operands, next) ← ((readOperands m formats).run (a + 1)).mapError .memory
    return { address := a, command, formats, operands, next }

/-- The number of bytes from the opcode to the next instruction. -/
def size (i : Instruction) : UInt32 :=
  i.next - i.address

/-- The opcode and the operands as bytes. -/
def encode (i : Instruction) : List UInt8 :=
  i.command.opcode ::
    (i.formats.zip i.operands).flatMap fun (f, v) => Memory.toLittleEndian f.size v.toNat

/-- An operand by number; one that is absent counts as zero. -/
def operand (i : Instruction) (n : Nat) : UInt32 :=
  (i.operands[n]?).getD 0

/-- Where a jump, a call or a conditional one of either leads. -/
def target? (i : Instruction) : Option UInt32 :=
  match i.command.action with
  | .transfer (.jump _) | .transfer (.branch _) => i.operands.getLast?
  | _ => none

/-- The variant of a trainer battle. -/
def battleKind? (i : Instruction) : Option BattleKind :=
  if i.command.action = .transfer .battle then some (.ofByte (i.operand 0).toUInt8) else none

/-- An operand of a trainer battle. -/
def battleOperand (f : Operand) (value : UInt32) : String :=
  if f = .pointer then addressText value else hex value.toNat

/-- The instruction in words, with numbers for operands. -/
def text (i : Instruction) : String :=
  match i.command.action with
  | .transfer (.branch call) =>
    "if " ++ Relation.symbolOf (i.operand 0).toUInt8 ++ (if call then " call " else " goto ") ++
      addressText (i.operand 1)
  | .transfer .battle =>
    " ".intercalate (i.command.mnemonic :: (i.formats.zip i.operands).map fun (f, v) =>
      battleOperand f v)
  | _ => Template.expand i.command.template i.operands

/-- A text in quotes. -/
def quoted (s : String) : String :=
  "\"" ++ s ++ "\""

/-- The text at an address on one line; the address in angle brackets if it cannot be read. -/
def textAt (m : Memory) (a : UInt32) : String :=
  match m.readText a Glyph.terminator Memory.textLimit with
  | .ok s => Glyph.flatten s
  | .error _ => "<" ++ addressText a ++ ">"

/-- The instruction in words, with the texts and the moves that it names. -/
def listing (m : Memory) (moveName? : UInt16 → Option String) (i : Instruction) : String :=
  match i.command.quotation with
  | .plain => i.text
  | .quoteFirst =>
    if i.operand 0 = 0 then i.text
    else i.command.mnemonic ++ " " ++ quoted (textAt m (i.operand 0))
  | .quoteSecond =>
    i.command.mnemonic ++ " " ++ toString (i.operand 0).toNat ++ " " ++
      quoted (textAt m (i.operand 1))
  | .quoteMove =>
    match moveName? (i.operand 0).toUInt16 with
    | some name => i.command.mnemonic ++ " " ++ quoted name
    | none => i.text

end Instruction

end Cartridge
