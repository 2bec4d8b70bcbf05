import Cartridge.Toml.Number

/-!
# Toml.parse? — a whole document

A document is a table made by its lines: headers choose the table that the keys below them go to.
-/

namespace Cartridge

namespace Scan

/-- A value.  Every step inward uses fuel, and so does every element after the first. -/
def value (depth : Nat) : (fuel : Nat) → Scan Toml
  | 0 => failure
  | fuel + 1 => do
    match ← peek? with
    | some '"' | some '\'' => return .text (← string)
    | some '[' =>
      expect "["
      guard (depth + 1 < depthLimit)
      return .array (← elements (depth + 1) fuel)
    | some '{' =>
      expect "\x7b"
      guard (depth + 1 < depthLimit)
      blanks
      if ← accept "\x7d" then return .table .inline []
      let t ← pairs (depth + 1) fuel ⟨.inline, []⟩
      return .table .inline t.entries
    | _ => bareValue
where
  /-- The elements of an array behind its bracket or a comma. -/
  elements (depth : Nat) : (fuel : Nat) → Scan (List Toml)
    | 0 => failure
    | fuel + 1 => do
      blankLines
      if ← accept "]" then return []
      let first ← value depth fuel
      blankLines
      if ← accept "," then return first :: (← elements depth fuel)
      expect "]"
      return [first]
  /-- The entries of a table between braces behind its brace or a comma. -/
  pairs (depth : Nat) : (fuel : Nat) → TomlTable → Scan TomlTable
    | 0, _ => failure
    | fuel + 1, t => do
      blanks
      let (path, last) ← key
      expect "="
      blanks
      let v ← value depth fuel
      blanks
      let t ← t.assign path last v
      if ← accept "," then return ← pairs depth fuel t
      expect "\x7d"
      return t

/-- A table under construction and the header that new keys go to. -/
structure Draft where
  root : TomlTable
  header : List String

/-- A header line behind its first bracket. -/
def headerTail (d : Draft) : Scan Draft := do
  let repeated ← accept "["
  blanks
  let (path, last) ← key
  expect (if repeated then "]]" else "]")
  lineEnd
  let start := if repeated then TomlTable.openNext last else TomlTable.openTable last
  let root ← d.root.update false start path
  return ⟨root, path ++ [last]⟩

/-- A line with a key and its value. -/
def entryLine (d : Draft) (fuel : Nat) : Scan Draft := do
  let (path, last) ← key
  expect "="
  blanks
  let v ← value 0 fuel
  lineEnd
  let root ← d.root.update false (TomlTable.assign path last v) d.header
  return { d with root }

/-- All lines of a document. -/
def lines (d : Draft) : (fuel : Nat) → Scan Draft
  | 0 => failure
  | fuel + 1 => do
    blankLines
    if (← get).isEmpty then return d
    if ← accept "[" then lines (← headerTail d) fuel
    else lines (← entryLine d (2 * (← remaining) + 2)) fuel

end Scan

/-- The table that a document describes; nothing if it is not well formed. -/
def Toml.parse? (source : String) : Option TomlTable := do
  let cs := source.toList
  let cs := if cs.head? = some '\ufeff' then cs.drop 1 else cs
  let (d, _) ← (Scan.lines ⟨⟨.header, []⟩, []⟩ (cs.length + 1)).run cs
  return d.root

end Cartridge
