/-!
# Glyph — the 256-entry character set of the game's text

A byte is one glyph.  `Glyph.decode` reads up to the first terminator; bytes without a glyph of
their own read as `?`.  The set has several bytes for one character, so it has no inverse.
-/

namespace Cartridge.Glyph

/-- The byte that ends a text. -/
def terminator : UInt8 := 0xFF

/-- The byte that breaks a line. -/
def newline : UInt8 := 0xFE

/-- Runs of consecutive glyphs: the first byte and the characters from there on. -/
def runs : List (Nat × String) :=
  [(0x00, " "),
   (0x01, "AAACEEEEI?IIOOOOUUUN"),
   (0x16, "aa?ceeeei?iioooouuun"),
   (0x2C, " &+"),
   (0x35, "="),
   (0x5A, "I%()"),
   (0x79, "^v<>"),
   (0xA1, "0123456789"),
   (0xAB, "!?.-*.\"\"''MF ,x/"),
   (0xBB, "ABCDEFGHIJKLMNOPQRSTUVWXYZ"),
   (0xD5, "abcdefghijklmnopqrstuvwxyz"),
   (0xEF, ">:AOUaou^v<"),
   (0xFE, "\n"),
   (0xFF, "\x00")]

/-- The glyph of a byte, looked up in the runs. -/
def ofRuns (byte : Nat) : Char :=
  (runs.findSome? fun run =>
    if run.1 ≤ byte then run.2.toList[byte - run.1]? else none).getD '?'

/-- The glyphs of all bytes. -/
def table : Vector Char 256 :=
  Vector.ofFn fun byte => ofRuns byte.val

/-- The glyph of a byte. -/
def char (byte : UInt8) : Char :=
  table.get ⟨byte.toNat, UInt8.toNat_lt byte⟩

/-- Text up to the first terminator, or all of it. -/
def decode (bytes : List UInt8) : String :=
  String.ofList ((bytes.takeWhile (· != terminator)).map char)

/-- Line breaks turned into blanks. -/
def flatten (text : String) : String :=
  String.ofList (text.toList.map fun c => if c = '\n' then ' ' else c)

end Cartridge.Glyph
