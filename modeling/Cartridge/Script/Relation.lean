/-!
# Relation — the comparisons a conditional command tests
-/

namespace Cartridge

/-- How the two compared values must stand to each other. -/
inductive Relation where
  | less | equal | greater | atMost | atLeast | different
deriving DecidableEq

namespace Relation

/-- The relation a byte stands for; bytes above five stand for none. -/
def ofByte? (byte : UInt8) : Option Relation :=
  [less, equal, greater, atMost, atLeast, different][byte.toNat]?

/-- Whether the relation holds between two unsigned values. -/
def holds : Relation → UInt32 → UInt32 → Bool
  | less, a, b => a < b
  | equal, a, b => a = b
  | greater, a, b => b < a
  | atMost, a, b => a ≤ b
  | atLeast, a, b => b ≤ a
  | different, a, b => a ≠ b

/-- The sign of the relation. -/
def symbol : Relation → String
  | less => "<"
  | equal => "=="
  | greater => ">"
  | atMost => "<="
  | atLeast => ">="
  | different => "!="

/-- The sign a byte prints as; a byte that stands for no relation prints as `?`. -/
def symbolOf (byte : UInt8) : String :=
  ((ofByte? byte).map symbol).getD "?"

end Relation

end Cartridge
