import Cartridge.Character.Invisible
import Cartridge.Character.Joining
import Cartridge.Script.Step

/-!
# Diagnostic — errors in structured form, as the command line reports them

A diagnostic names the cause and its fields.  Texts in it stand in quotes, with escapes for what
would not show.
-/

namespace Cartridge.Diagnostic

/-- Whether a character shows as it is: it has a form, and stands apart from the one before it. -/
def isShown (c : Char) : Bool :=
  !Character.isJoining c && !Character.isInvisible c

/-- The characters from the blank to the tilde show. -/
theorem isShown_of_plain {c : Char} (hf : 0x20 ≤ c.toNat) (hl : c.toNat ≤ 0x7E) :
    isShown c = true := by
  have hj : Character.isJoining c = false :=
    Character.inRanges_eq_false (by decide +kernel) hf hl
  have hi : Character.isInvisible c = false :=
    Character.inRanges_eq_false (by decide +kernel) hf hl
  rw [isShown, hj, hi]
  rfl

/-- A character of a quoted text. -/
def escape (c : Char) : String :=
  match c with
  | '"' => "\\\""
  | '\\' => "\\\\"
  | '\n' => "\\n"
  | '\r' => "\\r"
  | '\t' => "\\t"
  | '\x00' => "\\0"
  | c => if isShown c then c.toString else "\\u\x7b" ++ hexDigits c.toNat ++ "\x7d"

/-- A text in quotes. -/
def quoted (s : String) : String :=
  "\"" ++ String.join (s.toList.map escape) ++ "\""

/-- A cause with named fields. -/
def record (name : String) (fields : List (String × String)) : String :=
  name ++ " \x7b " ++ ", ".intercalate (fields.map fun (field, value) => field ++ ": " ++ value) ++
    " \x7d"

/-- A cause with another cause in it. -/
def nested (name inner : String) : String :=
  name ++ "(" ++ inner ++ ")"

/-- A list of numbers. -/
def numbers (ns : List Nat) : String :=
  "[" ++ ", ".intercalate (ns.map toString) ++ "]"

/-- An access that failed. -/
def ofMemory : MemoryError → String
  | .unmapped a => record "Unmapped" [("address", toString a.toNat)]
  | .outOfBounds a n => record "OutOfBounds" [("address", toString a.toNat), ("len", toString n)]

/-- An instruction that could not be decoded. -/
def ofDecode : DecodeError → String
  | .unknownOpcode opcode a =>
    record "UnknownOpcode" [("opcode", toString opcode.toNat), ("address", toString a.toNat)]
  | .memory e => nested "Memory" (ofMemory e)

/-- A run that failed. -/
def ofScript : ScriptError → String
  | .decode e => nested "Decode" (ofDecode e)
  | .budgetExhausted steps => record "BudgetExhausted" [("steps", toString steps)]
  | .contextCapExceeded contexts => record "ContextCapExceeded" [("contexts", toString contexts)]
  | .noSuchScript kind index home =>
    record "NoSuchScript" [("kind", kind.label), ("bank", toString home.bank.toNat),
      ("map", toString home.map.toNat), ("index", toString index)]
  | .memory e => nested "Memory" (ofMemory e)

end Cartridge.Diagnostic
