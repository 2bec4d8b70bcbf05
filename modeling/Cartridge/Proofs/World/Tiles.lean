import Cartridge.Proofs.Memory.Block
import Cartridge.Proofs.World.Grid
import Cartridge.Proofs.World.Stored
import Mathlib.Algebra.Order.Group.Nat

/-!
# Tiles — the grid of a map as it is stored

A behaviour that was read once is not read again.  What is known of the behaviours is what memory
holds (`Map.Faithful`), so the tiles are those that every cell gives on its own
(`Map.decodeTiles_eq`), and the tile of a cell is that of its halfword in the block of the grid
(`Map.decode_tile?`).
-/

namespace Cartridge.Map

variable {m : Memory} {layout : Layout} {id : MapId} {header primary secondary : UInt32}
  {known : Behaviors} {x : Map}

/-! ## Behaviours that are known -/

/-- The behaviours that are known are those that memory holds. -/
def Faithful (m : Memory) (primary secondary : UInt32) (known : Behaviors) : Prop :=
  ∀ tile behavior, known[tile]? = some behavior →
    m.readU16 (behaviorAddress primary secondary tile) = .ok behavior

theorem faithful_empty : Faithful m primary secondary {} := by
  intro tile behavior h
  rw [Std.HashMap.getElem?_empty] at h
  cases h

theorem Faithful.insert (h : Faithful m primary secondary known) {tile : Nat} {behavior : UInt16}
    (hread : m.readU16 (behaviorAddress primary secondary tile) = .ok behavior) :
    Faithful m primary secondary (known.insert tile behavior) := by
  intro other behavior' hother
  rw [Std.HashMap.getElem?_insert] at hother
  split at hother
  · next hsame =>
    obtain rfl := eq_of_beq hsame
    rwa [← Option.some.inj hother]
  · exact h other behavior' hother

/-- A behaviour is the one that memory holds, whether it was known or not, and fails to be read where
memory fails. -/
theorem Faithful.behaviorOf (h : Faithful m primary secondary known) (tile : Nat) :
    (∃ behavior known', Map.behaviorOf m primary secondary known tile = .ok (behavior, known') ∧
      m.readU16 (behaviorAddress primary secondary tile) = .ok behavior ∧
      Faithful m primary secondary known') ∨
    ∃ e, Map.behaviorOf m primary secondary known tile = .error e ∧
      m.readU16 (behaviorAddress primary secondary tile) = .error e := by
  unfold Map.behaviorOf
  cases hknown : known[tile]? with
  | some behavior => exact Or.inl ⟨behavior, known, rfl, h tile behavior hknown, h⟩
  | none =>
    cases hread : m.readU16 (behaviorAddress primary secondary tile) with
    | ok behavior => exact Or.inl ⟨behavior, _, rfl, rfl, h.insert hread⟩
    | error e => exact Or.inr ⟨e, rfl, rfl⟩

/-! ## Cells on their own -/

/-- The tile of a halfword, decoded on its own. -/
def decodeTile (m : Memory) (primary secondary : UInt32) (word : Nat) : Except MemoryError Tile := do
  let behavior ← m.readU16 (behaviorAddress primary secondary (word % 1024))
  return tileOf word behavior

/-- **Knowing behaviours changes nothing**: the tiles of a grid, or the failure to read them, are
those of its cells, decoded each on its own. -/
theorem decodeTiles_eq (h : Faithful m primary secondary known) (soFar : Array Tile)
    (words : List Nat) : decodeTiles m primary secondary known soFar words =
      (words.mapM (decodeTile m primary secondary)).map fun tiles => soFar ++ tiles.toArray := by
  induction words generalizing known soFar with
  | nil => exact congrArg Except.ok (Array.append_empty).symm
  | cons word rest ih =>
    rw [decodeTiles, List.mapM_cons, decodeTile]
    rcases h.behaviorOf (word % 1024) with ⟨behavior, known', hown, hread, h'⟩ | ⟨e, hown, hread⟩
    · rw [hown, hread]
      change decodeTiles m primary secondary known' _ rest = _
      rw [ih h']
      cases hrest : rest.mapM (decodeTile m primary secondary) with
      | error e => rfl
      | ok tiles =>
        refine congrArg Except.ok ?_
        dsimp only
        rw [List.toArray_cons, ← Array.append_assoc]
        rfl
    · rw [hown, hread]
      rfl

/-! ## The block of a grid -/

/-- The tile of a stored halfword: the upper six bits are its status, and its behaviour stands in the
table of one of the two tile sets, at the number that the lower ten bits give. -/
structure TileAt (m : Memory) (primary secondary : UInt32) (word : Nat) (t : Tile) : Prop where
  status : t.status.toNat = word / 1024
  behavior : m.readU16 (if word % 1024 < 640 then primary + (4 * (word % 1024)).toUInt32
    else secondary + (4 * (word % 1024 - 640)).toUInt32) = .ok t.behavior

theorem tileAt_of_decodeTile {word : Nat} {t : Tile} (hword : word < 2 ^ 16)
    (h : decodeTile m primary secondary word = .ok t) : TileAt m primary secondary word t := by
  obtain ⟨behavior, hread, ⟨⟩⟩ := bind_eq_ok_iff.mp h
  refine ⟨?_, hread⟩
  have hstatus : word / 1024 < 2 ^ 8 := by omega
  exact Nat.mod_eq_of_lt hstatus

/-- What is left of a block where no halfword is left. -/
theorem length_le_one_of_short {bytes : List UInt8}
    (h : ∀ (a b : UInt8) (rest : List UInt8), bytes = a :: b :: rest → False) :
    bytes.length ≤ 1 := by
  cases bytes with
  | nil => exact Nat.zero_le 1
  | cons a rest =>
    cases rest with
    | nil => exact Nat.le_refl 1
    | cons b rest => exact (h a b rest rfl).elim

theorem length_halfwords (bytes : List UInt8) : (halfwords bytes).length = bytes.length / 2 := by
  fun_induction halfwords with
  | case1 a b rest ih => simp only [List.length_cons, ih]; omega
  | case2 bytes hshort =>
    have := length_le_one_of_short hshort
    rw [List.length_nil]
    omega

/-- The halfwords of a block are pairs of its bytes, the lower one first. -/
theorem getElem?_halfwords {bytes : List UInt8} {i word : Nat} :
    (halfwords bytes)[i]? = some word ↔ ∃ low high, bytes[2 * i]? = some low ∧
      bytes[2 * i + 1]? = some high ∧ word = low.toNat + 256 * high.toNat := by
  fun_induction halfwords generalizing i with
  | case1 a b rest ih =>
    cases i with
    | zero => simp [Memory.littleEndian, eq_comm]
    | succ i => simp only [List.getElem?_cons_succ, ih, Nat.mul_succ]
  | case2 bytes hshort =>
    have hlength := length_le_one_of_short hshort
    have hnone : bytes[2 * i + 1]? = none := List.getElem?_eq_none (by omega)
    simp [hnone]

theorem word_lt (low high : UInt8) : low.toNat + 256 * high.toNat < 2 ^ 16 := by
  have := low.toNat_lt
  have := high.toNat_lt
  omega

/-- The tiles of a grid are as many as its halfwords, and each is that of its halfword. -/
theorem tiles_of_decodeTiles {block : List UInt8} {tiles : Array Tile}
    (h : decodeTiles m primary secondary {} #[] (halfwords block) = .ok tiles) :
    tiles.size = block.length / 2 ∧ ∀ i t, tiles[i]? = some t →
      ∃ low high, block[2 * i]? = some low ∧ block[2 * i + 1]? = some high ∧
        TileAt m primary secondary (low.toNat + 256 * high.toNat) t := by
  rw [decodeTiles_eq faithful_empty] at h
  cases hlist : (halfwords block).mapM (decodeTile m primary secondary) with
  | error e => rw [hlist] at h; cases h
  | ok list =>
    rw [hlist] at h
    obtain rfl : tiles = list.toArray := by
      cases h
      exact Array.empty_append
    obtain ⟨hlength, heach⟩ := List.forall₂_iff_get.mp (mapM_eq_ok_iff.mp hlist)
    rw [length_halfwords] at hlength
    refine ⟨by rw [List.size_toArray, hlength], fun i t ht => ?_⟩
    rw [List.getElem?_toArray] at ht
    obtain ⟨hi, rfl⟩ := List.getElem?_eq_some_iff.mp ht
    have hi' : i < (halfwords block).length := by rwa [length_halfwords, hlength]
    obtain ⟨low, high, hlow, hhigh, hword⟩ :=
      getElem?_halfwords.mp (List.getElem?_eq_getElem hi')
    have htile := heach i hi' hi
    rw [List.get_eq_getElem, hword] at htile
    exact ⟨low, high, hlow, hhigh, tileAt_of_decodeTile (word_lt low high) htile⟩

/-- A cell inside the grid has its place among the tiles, and no other cell has one. -/
theorem index?_eq_place_iff {c : Cell} {i : Nat} : x.index? c = some i ↔
    (0 ≤ c.x ∧ c.x < x.width ∧ 0 ≤ c.y ∧ c.y < x.height) ∧
      i = c.y.toNat * x.width + c.x.toNat := by
  rw [index?, Option.ite_none_right_eq_some, Option.some.injEq, eq_comm (a := i)]
  exact and_congr_left fun _ => ⟨fun ⟨h₁, h₂, h₃, h₄⟩ => ⟨h₁, h₃, h₂, h₄⟩,
    fun ⟨h₁, h₃, h₂, h₄⟩ => ⟨h₁, h₂, h₃, h₄⟩⟩

/-- A cell has a tile exactly inside the grid, if there are as many tiles as cells. -/
theorem isSome_tile?_iff (hx : x.tiles.size = x.width * x.height) (c : Cell) :
    (x.tile? c).isSome ↔ 0 ≤ c.x ∧ c.x < x.width ∧ 0 ≤ c.y ∧ c.y < x.height := by
  rw [Option.isSome_iff_exists, tile?]
  constructor
  · rintro ⟨t, ht⟩
    obtain ⟨i, hi, -⟩ := Option.bind_eq_some_iff.mp ht
    exact (index?_eq_place_iff.mp hi).1
  · intro hin
    have hrow : (c.y.toNat + 1) * x.width ≤ x.height * x.width :=
      Nat.mul_le_mul_right _ (by omega)
    have hsize : c.y.toNat * x.width + c.x.toNat < x.tiles.size := by
      rw [Nat.succ_mul] at hrow
      rw [hx, Nat.mul_comm x.width]
      omega
    rw [index?_eq_place_iff.mpr ⟨hin, rfl⟩]
    exact ⟨_, Array.getElem?_eq_getElem hsize⟩

/-- **The tile of a cell** of a decoded map is that of its halfword in the block of the grid.  There
is one exactly inside the grid. -/
theorem decode_tile? (h : decode m layout id header = .ok x) :
    ∃ a block primary secondary, m.readU32 header = .ok a ∧
      GridAt m a x.width x.height block primary secondary ∧
      ∀ c : Cell,
        ((x.tile? c).isSome ↔ 0 ≤ c.x ∧ c.x < x.width ∧ 0 ≤ c.y ∧ c.y < x.height) ∧
        ∀ t, x.tile? c = some t → ∃ low high,
          block[2 * (c.y.toNat * x.width + c.x.toNat)]? = some low ∧
          block[2 * (c.y.toNat * x.width + c.x.toNat) + 1]? = some high ∧
          TileAt m primary secondary (low.toNat + 256 * high.toNat) t := by
  obtain ⟨-, hstored⟩ := decode_eq_ok_iff.mp h
  obtain ⟨a, block, primary, secondary, ha, hgrid, htiles⟩ := hstored.grid
  obtain ⟨cells, -, hblock⟩ := hgrid.cells
  obtain ⟨hsize, heach⟩ := tiles_of_decodeTiles htiles
  have hcount : x.tiles.size = x.width * x.height := by
    rw [hsize, Memory.length_of_read hblock, Nat.mul_assoc]
    omega
  refine ⟨a, block, primary, secondary, ha, hgrid, fun c => ⟨isSome_tile?_iff hcount c, ?_⟩⟩
  intro t ht
  obtain ⟨i, hi, ht⟩ := Option.bind_eq_some_iff.mp ht
  obtain ⟨-, rfl⟩ := index?_eq_place_iff.mp hi
  exact heach _ t ht

/-- A row of three cells.  The first two have one tile of the primary set, which is grass, and the
last has the first tile of the secondary set, a ledge. -/
def trail : Memory :=
  Memory.empty.map Memory.cartridgeBase #[
    0x18, 0, 0, 8, 0x4C, 0, 0, 8, 0, 0, 0, 0, 0, 0, 0, 0, 0, 0, 0, 0, 0, 0, 0, 0,
    3, 0, 0, 0, 1, 0, 0, 0, 0, 0, 0, 0, 0x30, 0, 0, 8, 0x24, 0, 0, 8, 0x28, 0, 0, 8,
    0x01, 0x30, 0x01, 0x04, 0x80, 0x02, 0, 0, 0x40, 0, 0, 8, 0x48, 0, 0, 8,
    0, 0, 0, 0, 2, 2, 0, 0, 0x3B, 0, 0, 0,
    0, 0, 0, 0, 0, 0, 0, 0, 0, 0, 0, 0, 0, 0, 0, 0, 0, 0, 0, 0]

/-- The map whose header the trail starts with. -/
def trailMap : Map where
  id := ⟨0, 7⟩
  width := 3
  height := 1
  tiles := #[⟨0x0C, Tile.tallGrass⟩, ⟨1, Tile.tallGrass⟩, ⟨0, Tile.ledge .down⟩]

theorem storedAt_trail : StoredAt trail {} Memory.cartridgeBase trailMap where
  grid := by
    refine ⟨0x08000018, [0x01, 0x30, 0x01, 0x04, 0x80, 0x02], 0x08000040, 0x08000048,
      by decide +kernel, ?_, ?_⟩
    · exact {
        columns := ⟨3, by decide +kernel⟩
        rows := ⟨1, by decide +kernel⟩
        cells := ⟨0x08000030, by decide +kernel⟩
        first := ⟨0x08000024, by decide +kernel⟩
        second := ⟨0x08000028, by decide +kernel⟩ }
    · rw [decodeTiles_eq faithful_empty]
      decide +kernel
  events := by
    refine ⟨0x0800004C, by decide +kernel, ?_, ?_, ?_, ?_⟩ <;> exact ⟨0, 0, by decide +kernel⟩
  scripts := ⟨0, by decide +kernel⟩
  connections := ⟨0, by decide +kernel⟩
  name := ⟨0, by decide +kernel⟩

theorem decode_tile?_trail :
    decode trail {} ⟨0, 7⟩ Memory.cartridgeBase = .ok trailMap ∧
    ∃ a block primary secondary, trail.readU32 Memory.cartridgeBase = .ok a ∧
      GridAt trail a 3 1 block primary secondary ∧ trailMap.tile? ⟨3, 0⟩ = none ∧
      ∃ low high, block[2]? = some low ∧ block[3]? = some high ∧
        TileAt trail primary secondary (low.toNat + 256 * high.toNat) ⟨1, Tile.tallGrass⟩ := by
  have h : decode trail {} ⟨0, 7⟩ Memory.cartridgeBase = .ok trailMap :=
    decode_eq_ok_iff.mpr ⟨rfl, storedAt_trail⟩
  obtain ⟨a, block, primary, secondary, ha, hgrid, hcells⟩ := decode_tile? h
  obtain ⟨-, htile⟩ := hcells ⟨1, 0⟩
  have houtside := mt (hcells ⟨3, 0⟩).1.mp (by decide)
  exact ⟨h, a, block, primary, secondary, ha, hgrid, Option.not_isSome_iff_eq_none.mp houtside,
    htile _ rfl⟩

end Cartridge.Map
