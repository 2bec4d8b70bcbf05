import Cartridge.Glyph
import Cartridge.Memory.Basic

/-!
# Text in memory — strings that end in a delimiter
-/

namespace Cartridge.Memory

/-- A text without a limit of its own is cut after this many bytes. -/
def textLimit : Nat := 1000

/-- The bytes from `a` up to `delimiter`, at most `limit`, behind the ones read so far. -/
def readUntil (m : Memory) (delimiter : UInt8) (a : UInt32) (soFar : List UInt8) :
    (limit : Nat) → Except MemoryError (List UInt8)
  | 0 => .ok soFar.reverse
  | limit + 1 =>
    match m.readU8 a with
    | .error e => .error e
    | .ok byte =>
      if byte = delimiter then .ok soFar.reverse
      else m.readUntil delimiter (a + 1) (byte :: soFar) limit

/-- The text from `a` up to `delimiter`, read byte by byte. -/
def readText (m : Memory) (a : UInt32) (delimiter : UInt8) (limit : Nat) :
    Except MemoryError String := do
  let bytes ← m.readUntil delimiter a [] limit
  pure (Glyph.decode bytes)

end Cartridge.Memory
