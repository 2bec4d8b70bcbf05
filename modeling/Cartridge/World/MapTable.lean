import Cartridge.Memory.Cursor
import Cartridge.Memory.Text
import Cartridge.Settings.Layout
import Cartridge.World.Map
import Std.Data.HashMap

/-!
# MapTable — maps as the game stores them

A map header points to its grid, its events, its scripts and its borders; `Map.decode` follows the
pointers in that order and fails with the first read that fails.  Only the name is optional.
-/

namespace Cartridge.Map

variable (m : Memory)

/-- The results of a read for `i`, `i + 1`, … behind those collected so far; the first failure ends
the collection. -/
def collect {ε α : Type} (read : Nat → Except ε α) (soFar : Array α) (i : Nat) :
    (count : Nat) → Except ε (Array α)
  | 0 => .ok soFar
  | count + 1 =>
    match read i with
    | .ok a => collect read (soFar.push a) (i + 1) count
    | .error e => .error e

/-- The entries of a table at `a`, each of `size` bytes. -/
def readTable {α : Type} (entry : Cursor α) (a : UInt32) (size : Nat) (count : Nat) :
    Except MemoryError (Array α) :=
  collect (fun i => entry.readAt (a + (size * i).toUInt32)) #[] 0 count

/-! ### The grid -/

/-- Tiles below this number belong to the primary tile set. -/
def primaryTileCount : Nat := 640

/-- Where the behaviour of a tile is stored. -/
def behaviorAddress (primary secondary : UInt32) (tile : Nat) : UInt32 :=
  if tile < primaryTileCount then primary + (4 * tile).toUInt32
  else secondary + (4 * (tile - primaryTileCount)).toUInt32

/-- The halfwords of a run of bytes. -/
def halfwords : List UInt8 → List Nat
  | a :: b :: rest => Memory.littleEndian [a, b] :: halfwords rest
  | _ => []

/-- The tile that a stored halfword stands for, six bits of status over ten bits of tile number, once
its behaviour is at hand. -/
def tileOf (word : Nat) (behavior : UInt16) : Tile :=
  ⟨(word / 1024).toUInt8, behavior⟩

/-- Behaviours that have been read, by tile number. -/
abbrev Behaviors := Std.HashMap Nat UInt16

/-- The behaviour of a tile, and the behaviours known then.  Memory is read for a tile that is met
for the first time. -/
def behaviorOf (primary secondary : UInt32) (known : Behaviors) (tile : Nat) :
    Except MemoryError (UInt16 × Behaviors) :=
  match known[tile]? with
  | some behavior => .ok (behavior, known)
  | none =>
    match m.readU16 (behaviorAddress primary secondary tile) with
    | .ok behavior => .ok (behavior, known.insert tile behavior)
    | .error e => .error e

/-- The tiles of a row-by-row grid of halfwords behind those decoded so far. -/
def decodeTiles (primary secondary : UInt32) (known : Behaviors) (soFar : Array Tile) :
    List Nat → Except MemoryError (Array Tile)
  | [] => .ok soFar
  | word :: rest =>
    match behaviorOf m primary secondary known (word % 1024) with
    | .ok (behavior, known) =>
      decodeTiles primary secondary known (soFar.push (tileOf word behavior)) rest
    | .error e => .error e

/-! ### Events -/

/-- A person as the game stores it. -/
def personEntry : Cursor Person := do
  let localId ← Cursor.u8 m
  let picture ← Cursor.u8 m
  Cursor.skip 2
  let x ← Cursor.u16 m
  let y ← Cursor.u16 m
  let level ← Cursor.u8 m
  let movementType ← Cursor.u8 m
  let movement ← Cursor.u8 m
  Cursor.skip 1
  let trainer ← Cursor.u8 m
  Cursor.skip 1
  let view ← Cursor.u16 m
  let script ← Cursor.u32 m
  let flag ← Cursor.u16 m
  return { localId, picture, x, y, level, movementType, movement, trainer, view, script, flag }

/-- A warp as the game stores it: its target map comes before its target bank. -/
def warpEntry : Cursor Warp := do
  let x ← Cursor.u16 m
  let y ← Cursor.u16 m
  let level ← Cursor.u8 m
  let arrival ← Cursor.u8 m
  let map ← Cursor.u8 m
  let bank ← Cursor.u8 m
  return { x, y, level, arrival, target := ⟨bank, map⟩ }

/-- A trigger as the game stores it. -/
def triggerEntry : Cursor Trigger := do
  let x ← Cursor.u16 m
  let y ← Cursor.u16 m
  let level ← Cursor.u8 m
  Cursor.skip 1
  let var ← Cursor.u16 m
  let value ← Cursor.u16 m
  Cursor.skip 2
  let script ← Cursor.u32 m
  return { x, y, level, var, value, script }

/-- A sign as the game stores it. -/
def signEntry : Cursor Sign := do
  let x ← Cursor.u16 m
  let y ← Cursor.u16 m
  let level ← Cursor.u8 m
  let kind ← Cursor.u8 m
  Cursor.skip 2
  let script ← Cursor.u32 m
  return { x, y, level, kind, script }

/-- A border as the game stores it. -/
def connectionEntry : Cursor Connection := do
  let kind ← Cursor.u32 m
  let offset ← Cursor.i32 m
  let bank ← Cursor.u8 m
  let map ← Cursor.u8 m
  return { kind := .ofCode kind, offset := offset.toInt, target := ⟨bank, map⟩ }

/-- The guard of a script and the script. -/
def guardedEntry (kind : MapScriptKind) : Cursor MapScript := do
  let var ← Cursor.u16 m
  let value ← Cursor.u16 m
  let script ← Cursor.u32 m
  return { kind, script, var, value }

/-- The border list at `a`; no list at address zero. -/
def readConnections (a : UInt32) : Except MemoryError (Array Connection) := do
  if a = 0 then return #[]
  let count ← m.readU32 a
  let list ← m.readU32 (a + 4)
  readTable (connectionEntry m) list 12 count.toNat

/-- The map scripts from `a` on behind those read so far.  An entry is a kind and a pointer, and a
kind of zero ends the list. -/
def collectScripts (soFar : Array MapScript) (a : UInt32) :
    (fuel : Nat) → Except MemoryError (Array MapScript)
  | 0 => .ok soFar
  | fuel + 1 => do
    let code ← m.readU8 a
    if code = 0 then return soFar
    let kind := MapScriptKind.ofByte code
    let pointer ← m.readU32 (a + 1)
    let script ←
      if kind.isGuarded then (guardedEntry m kind).readAt pointer
      else pure { kind, script := pointer }
    collectScripts (soFar.push script) (a + 5) fuel

/-- The map scripts at `a`; no list at address zero.  No two entries of a list share an address, so
there are not more of them than mapped bytes. -/
def readScripts (a : UInt32) : Except MemoryError (Array MapScript) :=
  if a = 0 then .ok #[] else collectScripts m #[] a (m.mappedBytes + 1)

/-! ### The header -/

/-- Labels count from here on. -/
def firstLabel : UInt8 := 88

/-- The name behind a label; a name that cannot be read is empty. -/
def readName (layout : Layout) (label : UInt8) : String :=
  if label < firstLabel then ""
  else
    match m.readU32 (layout.mapNames + 4 * (label - firstLabel).toUInt32) with
    | .ok a => ((m.readText a Glyph.terminator Memory.textLimit).toOption).getD ""
    | .error _ => ""

/-- The pointers of a map header: grid, events, scripts, borders; then the label of the map. -/
def headerEntry : Cursor (UInt32 × UInt32 × UInt32 × UInt32 × UInt8) := do
  let grid ← Cursor.u32 m
  let events ← Cursor.u32 m
  let scripts ← Cursor.u32 m
  let connections ← Cursor.u32 m
  Cursor.skip 4
  let label ← Cursor.u8 m
  return (grid, events, scripts, connections, label)

/-- The head of a grid: width, height, cells, and the two tile sets. -/
def gridEntry : Cursor (UInt32 × UInt32 × UInt32 × UInt32 × UInt32) := do
  let width ← Cursor.u32 m
  let height ← Cursor.u32 m
  Cursor.skip 4
  let cells ← Cursor.u32 m
  let primary ← Cursor.u32 m
  let secondary ← Cursor.u32 m
  return (width, height, cells, primary, secondary)

/-- The head of the event tables: four counts. -/
def eventCounts : Cursor (UInt8 × UInt8 × UInt8 × UInt8) := do
  let persons ← Cursor.u8 m
  let warps ← Cursor.u8 m
  let triggers ← Cursor.u8 m
  let signs ← Cursor.u8 m
  return (persons, warps, triggers, signs)

/-- The pointers that follow the counts. -/
def eventPointers : Cursor (UInt32 × UInt32 × UInt32 × UInt32) := do
  let persons ← Cursor.u32 m
  let warps ← Cursor.u32 m
  let triggers ← Cursor.u32 m
  let signs ← Cursor.u32 m
  return (persons, warps, triggers, signs)

/-- The map whose header stands at an address. -/
def decode (layout : Layout) (id : MapId) (header : UInt32) : Except MemoryError Map := do
  let (grid, events, scriptList, borders, label) ← (headerEntry m).readAt header
  let (width, height, cells, primarySet, secondarySet) ← (gridEntry m).readAt grid
  let primary ← m.readU32 (primarySet + 20)
  let secondary ← m.readU32 (secondarySet + 20)
  let words ← m.read cells (2 * width.toNat * height.toNat)
  let tiles ← decodeTiles m primary secondary {} #[] (halfwords words)
  let (personCount, warpCount, triggerCount, signCount) ← (eventCounts m).readAt events
  let (personList, warpList, triggerList, signList) ← (eventPointers m).readAt (events + 4)
  let persons ← readTable (personEntry m) personList 24 personCount.toNat
  let warps ← readTable (warpEntry m) warpList 8 warpCount.toNat
  let triggers ← readTable (triggerEntry m) triggerList 16 triggerCount.toNat
  let signs ← readTable (signEntry m) signList 12 signCount.toNat
  let connections ← readConnections m borders
  let scripts ← readScripts m scriptList
  return {
    id, name := readName m layout label, width := width.toNat, height := height.toNat, tiles,
    persons, warps, triggers, signs, connections, scripts }

end Cartridge.Map
