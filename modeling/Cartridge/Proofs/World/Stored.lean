import Cartridge.Proofs.Memory.Sequence
import Cartridge.World.MapTable

/-!
# Stored — a map and the memory behind its header

Decoding a header gives a map exactly if the map is stored there (`Map.decode_eq_ok_iff`): its grid,
its events, its scripts and its borders are what the pointers of the header lead to.
-/

namespace Cartridge.Map

open Cursor (readAt_pure readAt_bind_u8 readAt_bind_u16 readAt_bind_u32 readAt_bind_skip)

variable {m : Memory} {layout : Layout} {id : MapId} {a header : UInt32} {x : Map}

/-! ## Heads -/

theorem headerEntry_eq_ok_iff {grid events scripts connections : UInt32} {label : UInt8} :
    (headerEntry m).readAt a = .ok (grid, events, scripts, connections, label) ↔
      m.readU32 a = .ok grid ∧ m.readU32 (a + 4) = .ok events ∧ m.readU32 (a + 8) = .ok scripts ∧
        m.readU32 (a + 12) = .ok connections ∧ m.readU8 (a + 20) = .ok label := by
  simp only [headerEntry, readAt_bind_u32, readAt_bind_u8, readAt_bind_skip, readAt_pure,
    bind_eq_ok_iff, Except.ok.injEq, Prod.mk.injEq, UInt32.add_assoc, UInt32.reduceAdd]
  constructor
  · rintro ⟨_, hgrid, _, hevents, _, hscripts, _, hconnections, _, hlabel, rfl, rfl, rfl, rfl, rfl⟩
    exact ⟨hgrid, hevents, hscripts, hconnections, hlabel⟩
  · rintro ⟨hgrid, hevents, hscripts, hconnections, hlabel⟩
    exact ⟨_, hgrid, _, hevents, _, hscripts, _, hconnections, _, hlabel, rfl, rfl, rfl, rfl, rfl⟩

theorem gridEntry_eq_ok_iff {width height cells primary secondary : UInt32} :
    (gridEntry m).readAt a = .ok (width, height, cells, primary, secondary) ↔
      m.readU32 a = .ok width ∧ m.readU32 (a + 4) = .ok height ∧ m.readU32 (a + 12) = .ok cells ∧
        m.readU32 (a + 16) = .ok primary ∧ m.readU32 (a + 20) = .ok secondary := by
  simp only [gridEntry, readAt_bind_u32, readAt_bind_skip, readAt_pure, bind_eq_ok_iff,
    Except.ok.injEq, Prod.mk.injEq, UInt32.add_assoc, UInt32.reduceAdd]
  constructor
  · rintro ⟨_, hwidth, _, hheight, _, hcells, _, hprimary, _, hsecondary, rfl, rfl, rfl, rfl, rfl⟩
    exact ⟨hwidth, hheight, hcells, hprimary, hsecondary⟩
  · rintro ⟨hwidth, hheight, hcells, hprimary, hsecondary⟩
    exact ⟨_, hwidth, _, hheight, _, hcells, _, hprimary, _, hsecondary, rfl, rfl, rfl, rfl, rfl⟩

theorem eventCounts_eq_ok_iff {persons warps triggers signs : UInt8} :
    (eventCounts m).readAt a = .ok (persons, warps, triggers, signs) ↔
      m.readU8 a = .ok persons ∧ m.readU8 (a + 1) = .ok warps ∧ m.readU8 (a + 2) = .ok triggers ∧
        m.readU8 (a + 3) = .ok signs := by
  simp only [eventCounts, readAt_bind_u8, readAt_pure, bind_eq_ok_iff, Except.ok.injEq,
    Prod.mk.injEq, UInt32.add_assoc, UInt32.reduceAdd]
  constructor
  · rintro ⟨_, hpersons, _, hwarps, _, htriggers, _, hsigns, rfl, rfl, rfl, rfl⟩
    exact ⟨hpersons, hwarps, htriggers, hsigns⟩
  · rintro ⟨hpersons, hwarps, htriggers, hsigns⟩
    exact ⟨_, hpersons, _, hwarps, _, htriggers, _, hsigns, rfl, rfl, rfl, rfl⟩

theorem eventPointers_eq_ok_iff {persons warps triggers signs : UInt32} :
    (eventPointers m).readAt a = .ok (persons, warps, triggers, signs) ↔
      m.readU32 a = .ok persons ∧ m.readU32 (a + 4) = .ok warps ∧
        m.readU32 (a + 8) = .ok triggers ∧ m.readU32 (a + 12) = .ok signs := by
  simp only [eventPointers, readAt_bind_u32, readAt_pure, bind_eq_ok_iff, Except.ok.injEq,
    Prod.mk.injEq, UInt32.add_assoc, UInt32.reduceAdd]
  constructor
  · rintro ⟨_, hpersons, _, hwarps, _, htriggers, _, hsigns, rfl, rfl, rfl, rfl⟩
    exact ⟨hpersons, hwarps, htriggers, hsigns⟩
  · rintro ⟨hpersons, hwarps, htriggers, hsigns⟩
    exact ⟨_, hpersons, _, hwarps, _, htriggers, _, hsigns, rfl, rfl, rfl, rfl⟩

/-! ## Maps -/

/-- The head of a grid: its size, its cells in one block, and the behaviours of the tiles of both
sets. -/
structure GridAt (m : Memory) (a : UInt32) (width height : Nat) (block : List UInt8)
    (primary secondary : UInt32) : Prop where
  columns : ∃ n, m.readU32 a = .ok n ∧ n.toNat = width
  rows : ∃ n, m.readU32 (a + 4) = .ok n ∧ n.toNat = height
  cells : ∃ b, m.readU32 (a + 12) = .ok b ∧ m.read b (2 * width * height) = .ok block
  first : ∃ b, m.readU32 (a + 16) = .ok b ∧ m.readU32 (b + 20) = .ok primary
  second : ∃ b, m.readU32 (a + 20) = .ok b ∧ m.readU32 (b + 20) = .ok secondary

/-- A table of entries of some size: how many there are stands at one address, and where the first
one is at another. -/
def TableAt {α : Type} (m : Memory) (entry : Cursor α) (size : Nat) (count list : UInt32)
    (xs : Array α) : Prop :=
  ∃ n b, m.readU8 count = .ok n ∧ m.readU32 list = .ok b ∧
    readTable entry b size n.toNat = .ok xs

/-- The events of a map: four counts, and then the addresses of the four tables. -/
structure EventsAt (m : Memory) (a : UInt32) (x : Map) : Prop where
  persons : TableAt m (personEntry m) 24 a (a + 4) x.persons
  warps : TableAt m (warpEntry m) 8 (a + 1) (a + 8) x.warps
  triggers : TableAt m (triggerEntry m) 16 (a + 2) (a + 12) x.triggers
  signs : TableAt m (signEntry m) 12 (a + 3) (a + 16) x.signs

/-- A map is what the pointers of a header lead to. -/
structure StoredAt (m : Memory) (layout : Layout) (header : UInt32) (x : Map) : Prop where
  grid : ∃ a block primary secondary, m.readU32 header = .ok a ∧
    GridAt m a x.width x.height block primary secondary ∧
    decodeTiles m primary secondary {} #[] (halfwords block) = .ok x.tiles
  events : ∃ a, m.readU32 (header + 4) = .ok a ∧ EventsAt m a x
  scripts : ∃ a, m.readU32 (header + 8) = .ok a ∧ readScripts m a = .ok x.scripts
  connections : ∃ a, m.readU32 (header + 12) = .ok a ∧ readConnections m a = .ok x.connections
  name : ∃ label, m.readU8 (header + 20) = .ok label ∧ readName m layout label = x.name

/-- **Decoding a header** gives a map if and only if it is stored there, and has the id that was
asked for. -/
theorem decode_eq_ok_iff :
    decode m layout id header = .ok x ↔ x.id = id ∧ StoredAt m layout header x := by
  simp only [decode, bind_eq_ok_iff, Prod.exists, headerEntry_eq_ok_iff, gridEntry_eq_ok_iff,
    eventCounts_eq_ok_iff, eventPointers_eq_ok_iff, UInt32.add_assoc, UInt32.reduceAdd]
  constructor
  · intro h
    obtain ⟨grid, events, scriptList, borders, label,
      ⟨hgrid, hevents, hscripts, hborders, hlabel⟩, h⟩ := h
    obtain ⟨width, height, cells, first, second,
      ⟨hwidth, hheight, hcells, hfirst, hsecond⟩, h⟩ := h
    obtain ⟨primary, hprimary, secondary, hsecondary, block, hblock, tiles, htiles, h⟩ := h
    obtain ⟨nPersons, nWarps, nTriggers, nSigns, ⟨hnPersons, hnWarps, hnTriggers, hnSigns⟩, h⟩ := h
    obtain ⟨personList, warpList, triggerList, signList,
      ⟨hpersonList, hwarpList, htriggerList, hsignList⟩, h⟩ := h
    obtain ⟨persons, hpersons, warps, hwarps, triggers, htriggers, signs, hsigns, h⟩ := h
    obtain ⟨connections, hconnections, scripts, hscripts', hx⟩ := h
    cases hx
    exact ⟨rfl, {
      grid := ⟨_, block, primary, secondary, hgrid, {
        columns := ⟨_, hwidth, rfl⟩
        rows := ⟨_, hheight, rfl⟩
        cells := ⟨_, hcells, hblock⟩
        first := ⟨_, hfirst, hprimary⟩
        second := ⟨_, hsecond, hsecondary⟩ }, htiles⟩
      events := ⟨_, hevents, {
        persons := ⟨_, _, hnPersons, hpersonList, hpersons⟩
        warps := ⟨_, _, hnWarps, hwarpList, hwarps⟩
        triggers := ⟨_, _, hnTriggers, htriggerList, htriggers⟩
        signs := ⟨_, _, hnSigns, hsignList, hsigns⟩ }⟩
      scripts := ⟨_, hscripts, hscripts'⟩
      connections := ⟨_, hborders, hconnections⟩
      name := ⟨_, hlabel, rfl⟩ }⟩
  · rintro ⟨rfl, ⟨⟨grid, block, primary, secondary, hgrid,
      ⟨⟨width, hwidth, hw⟩, ⟨height, hheight, hh⟩, ⟨cells, hcells, hblock⟩,
        ⟨first, hfirst, hprimary⟩, ⟨second, hsecond, hsecondary⟩⟩, htiles⟩,
      ⟨events, hevents, ⟨⟨nPersons, personList, hnPersons, hpersonList, hpersons⟩,
        ⟨nWarps, warpList, hnWarps, hwarpList, hwarps⟩,
        ⟨nTriggers, triggerList, hnTriggers, htriggerList, htriggers⟩,
        ⟨nSigns, signList, hnSigns, hsignList, hsigns⟩⟩⟩,
      ⟨scriptList, hscripts, hscripts'⟩, ⟨borders, hborders, hconnections⟩,
      ⟨label, hlabel, hname⟩⟩⟩
    rw [← hw, ← hh] at hblock
    refine ⟨grid, events, scriptList, borders, label,
      ⟨hgrid, hevents, hscripts, hborders, hlabel⟩,
      width, height, cells, first, second, ⟨hwidth, hheight, hcells, hfirst, hsecond⟩,
      primary, hprimary, secondary, hsecondary, block, hblock, x.tiles, htiles,
      nPersons, nWarps, nTriggers, nSigns, ⟨hnPersons, hnWarps, hnTriggers, hnSigns⟩,
      personList, warpList, triggerList, signList, ⟨hpersonList, hwarpList, htriggerList, hsignList⟩,
      x.persons, hpersons, x.warps, hwarps, x.triggers, htriggers, x.signs, hsigns,
      x.connections, hconnections, x.scripts, hscripts', ?_⟩
    rw [hw, hh, hname]
    rfl

end Cartridge.Map
