import Cartridge.World.MapTable

/-!
# World — all maps of the game, by bank and number

`World.ofMaps` places loose maps under their own ids and fills the gaps with empty maps;
`World.decode` follows the game's bank table.
-/

namespace Cartridge

/-- Why the bank table could not be decoded. -/
inductive WorldError where
  | memory (e : MemoryError)
  /-- A bank ends before it starts. -/
  | badMapTable (address : UInt32)
deriving DecidableEq

namespace WorldError

/-- The wording of the error. -/
def message : WorldError → String
  | memory e => e.message
  | badMapTable a => "map bank table at " ++ addressText a ++ " is malformed"

end WorldError

/-- The maps of the game, bank by bank. -/
structure World where
  banks : Array (Array Map)

namespace World

/-- No map at all. -/
def empty : World := ⟨#[]⟩

/-- The map with an id. -/
def map? (w : World) (id : MapId) : Option Map :=
  (w.banks[id.bank.toNat]?).bind (·[id.map.toNat]?)

/-- Every map, bank by bank. -/
def maps (w : World) : List Map :=
  (w.banks.toList.map Array.toList).flatten

/-- An array filled up to a size. -/
def growTo {α : Type} (xs : Array α) (size : Nat) (fill : Nat → α) : Array α :=
  xs ++ Array.ofFn (n := size - xs.size) fun i => fill (xs.size + i.val)

/-- The empty map that stands where no map is given. -/
def placeholder (id : MapId) : Map :=
  Map.ofTiles id 0 0 #[]

/-- Puts a map under its own id, in place of any other; the gaps before it hold empty maps. -/
def place (w : World) (m : Map) : World :=
  let b := m.id.bank.toNat
  let banks := growTo w.banks (b + 1) fun _ => #[]
  let bank := growTo (banks[b]?.getD #[]) (m.id.map.toNat + 1) fun n =>
    placeholder ⟨m.id.bank, n.toUInt8⟩
  ⟨banks.setIfInBounds b (bank.setIfInBounds m.id.map.toNat m)⟩

/-- The world of some maps; of two maps with one id the later one stays. -/
def ofMaps (maps : List Map) : World :=
  maps.foldl place empty

/-- The maps of a bank whose headers are listed from `start` up to `finish`. -/
def decodeBank (m : Memory) (layout : Layout) (bank : Nat) (start finish : UInt32) :
    Except MemoryError (Array Map) :=
  Map.collect (fun n => do
      let header ← m.readU32 (start + (4 * n).toUInt32)
      Map.decode m layout ⟨bank.toUInt8, n.toUInt8⟩ header)
    #[] 0 ((finish.toNat - start.toNat + 3) / 4)

/-- The banks from entry `banks.size` on behind those decoded so far.  A bank's list of maps ends
where the next one starts, and the table ends with an entry that lies not behind the start of the
cartridge. -/
def collectBanks (m : Memory) (layout : Layout) (banks : Array (Array Map)) :
    (fuel : Nat) → Except WorldError World
  | 0 => .ok ⟨banks⟩
  | fuel + 1 => do
    let entry := layout.mapBanks + (4 * banks.size).toUInt32
    let start ← (m.readU32 entry).mapError .memory
    let finish ← (m.readU32 (entry + 4)).mapError .memory
    if finish ≤ Memory.cartridgeBase then return ⟨banks⟩
    if finish < start then throw (.badMapTable entry)
    let maps ← (decodeBank m layout banks.size start finish).mapError .memory
    collectBanks m layout (banks.push maps) fuel

/-- The world that the game's bank table describes.  Every bank has an entry of its own in mapped
memory, so there are not more banks than mapped bytes. -/
def decode (m : Memory) (layout : Layout) : Except WorldError World :=
  collectBanks m layout #[] (m.mappedBytes + 1)

end World

end Cartridge
