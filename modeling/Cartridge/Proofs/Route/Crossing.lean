import Cartridge.Route.Search
import Mathlib.Data.List.Basic

/-!
# Crossing — the hops that leave a map

`World.crossings` lists exactly the hops over an open border of the map and through a warp that
leads to a warp which leads back (`World.mem_crossings_iff`), whatever else the maps hold.  A finder
that remembers the exits of borders finds these hops too (`RouteFinder.crossings_eq`).
-/

namespace Cartridge

namespace Connection

/-- Whatever starts a run is a cell of the list that passes the test. -/
theorem of_mem_runStarts {isOpen : Cell → Bool} {inRun : Bool} {cells : List Cell} {a : Cell}
    (h : a ∈ runStarts isOpen inRun cells) : a ∈ cells ∧ isOpen a = true := by
  induction cells generalizing inRun with
  | nil => exact absurd h List.not_mem_nil
  | cons c rest ih =>
    have hrest (ha : a ∈ runStarts isOpen (isOpen c) rest) : a ∈ c :: rest ∧ isOpen a = true :=
      ⟨List.mem_cons_of_mem _ (ih ha).1, (ih ha).2⟩
    simp only [runStarts] at h
    split at h
    · next hc =>
      rcases List.mem_cons.mp h with rfl | ha
      · exact ⟨List.mem_cons_self, (Bool.and_eq_true _ _ ▸ hc).1⟩
      · exact hrest ha
    · exact hrest h

/-- At an exit the border can be walked on both sides. -/
theorem isOpen_of_mem_exits {c : Connection} {m neighbor : Map} {exit : Cell}
    (h : exit ∈ c.exits m neighbor) : c.isOpen m neighbor exit = true :=
  (of_mem_runStarts h).2

end Connection

namespace World

variable (w : World)

/-- The hops over one border. -/
def borderCrossings (m : Map) (c : Connection) : List (Edge × Spot) :=
  match w.map? c.target with
  | none => []
  | some neighbor => c.crossings neighbor (c.exits m neighbor)

/-- The hops that leave a map: borders first, then warps. -/
def crossings (m : Map) : List (Edge × Spot) :=
  m.connections.toList.flatMap (w.borderCrossings m) ++
    m.warps.toList.zipIdx.filterMap fun (warp, index) => w.warpCrossing? m index warp

/-- A hop from a map to a place. -/
inductive Lands (m : Map) : Edge → Spot → Prop where
  /-- Over the border: from an exit to the entry that matches it, which can be walked on. -/
  | border {c : Connection} {neighbor : Map} {exit entry : Cell} (mem : c ∈ m.connections)
    (there : w.map? c.target = some neighbor) (leave : exit ∈ c.exits m neighbor)
    (enter : c.entry? neighbor exit = some entry) (walkable : neighbor.isWalkable entry = true) :
    Lands m (.connection exit c) ⟨entry, c.target⟩
  /-- Through a warp: to the warp that it names, which names a warp of this map. -/
  | warp {index : Nat} {warp arrival : Warp} {target : Map} (here : m.warps[index]? = some warp)
    (there : w.map? warp.target = some target)
    (arrives : target.warps[warp.arrival.toNat]? = some arrival)
    (back : arrival.arrival.toNat < m.warps.size) :
    Lands m (.warp index warp) ⟨arrival.cell, warp.target⟩

variable {w} {m : Map} {edge : Edge} {finish : Spot}

theorem mem_borderCrossings_iff {c : Connection} :
    (edge, finish) ∈ w.borderCrossings m c ↔
      ∃ neighbor exit entry, w.map? c.target = some neighbor ∧ exit ∈ c.exits m neighbor ∧
        c.entry? neighbor exit = some entry ∧ edge = .connection exit c ∧
        finish = ⟨entry, c.target⟩ := by
  unfold borderCrossings
  cases hn : w.map? c.target with
  | none => simp
  | some neighbor =>
    simp only [Connection.crossings, List.mem_filterMap, Option.map_eq_some_iff, Prod.mk.injEq]
    constructor
    · rintro ⟨exit, hexit, entry, hentry, rfl, rfl⟩
      exact ⟨neighbor, exit, entry, rfl, hexit, hentry, rfl, rfl⟩
    · rintro ⟨neighbor', exit, entry, hneighbor, hexit, hentry, rfl, rfl⟩
      cases hneighbor
      exact ⟨exit, hexit, entry, hentry, rfl, rfl⟩

theorem warpCrossing_eq_some_iff {index : Nat} {warp : Warp} :
    w.warpCrossing? m index warp = some (edge, finish) ↔
      ∃ target arrival, w.map? warp.target = some target ∧
        target.warps[warp.arrival.toNat]? = some arrival ∧
        arrival.arrival.toNat < m.warps.size ∧ edge = .warp index warp ∧
        finish = ⟨arrival.cell, warp.target⟩ := by
  unfold warpCrossing?
  simp only [Option.bind_eq_bind, Option.bind_eq_some_iff]
  constructor
  · rintro ⟨target, htarget, arrival, harrival, h⟩
    split at h
    · next hback =>
      cases h
      exact ⟨target, arrival, htarget, harrival, hback, rfl, rfl⟩
    · cases h
  · rintro ⟨target, arrival, htarget, harrival, hback, rfl, rfl⟩
    exact ⟨target, htarget, arrival, harrival, if_pos hback⟩

/-- **The hops that leave a map** are those over its open borders and through its warps that lead to
a warp which leads back. -/
theorem mem_crossings_iff : (edge, finish) ∈ w.crossings m ↔ w.Lands m edge finish := by
  simp only [crossings, List.mem_append, List.mem_flatMap, List.mem_filterMap,
    mem_borderCrossings_iff, Array.mem_toList_iff]
  constructor
  · rintro (⟨c, hc, neighbor, exit, entry, hneighbor, hexit, hentry, rfl, rfl⟩ |
      ⟨⟨warp, index⟩, hmem, hwarp⟩)
    · have hopen := Connection.isOpen_of_mem_exits hexit
      rw [Connection.isOpen, Bool.and_eq_true, hentry] at hopen
      exact .border hc hneighbor hexit hentry (by simpa using hopen.2)
    · obtain ⟨target, arrival, htarget, harrival, hback, rfl, rfl⟩ :=
        warpCrossing_eq_some_iff.mp hwarp
      rw [List.mem_zipIdx_iff_getElem?, Array.getElem?_toList] at hmem
      exact .warp hmem htarget harrival hback
  · rintro (⟨hc, hneighbor, hexit, hentry, -⟩ | ⟨hindex, htarget, harrival, hback⟩)
    · exact Or.inl ⟨_, hc, _, _, _, hneighbor, hexit, hentry, rfl, rfl⟩
    · refine Or.inr ⟨(_, _), ?_, warpCrossing_eq_some_iff.mpr
        ⟨_, _, htarget, harrival, hback, rfl, rfl⟩⟩
      rw [List.mem_zipIdx_iff_getElem?, Array.getElem?_toList]
      exact hindex

/-- A map that the world has is among its maps. -/
theorem mem_maps_of_map? {id : MapId} (h : w.map? id = some m) : m ∈ w.maps := by
  unfold map? at h
  obtain ⟨bank, hbank, hm⟩ := Option.bind_eq_some_iff.mp h
  unfold maps
  rw [List.mem_flatten]
  refine ⟨bank.toList, List.mem_map.mpr ⟨bank, ?_, rfl⟩, ?_⟩
  · exact Array.mem_toList_iff.mpr (Array.mem_of_getElem? hbank)
  · exact Array.mem_toList_iff.mpr (Array.mem_of_getElem? hm)

end World

namespace RouteFinder

variable {f : RouteFinder} {here : MapId} {m neighbor : Map} {c : Connection} {index : Nat}

/-- The remembered exits are those of the borders. -/
def Charted (f : RouteFinder) : Prop :=
  ∀ (here : MapId) (m : Map) (index : Nat) (c : Connection) (neighbor : Map),
    f.world.map? here = some m → m.connections[index]? = some c →
      f.world.map? c.target = some neighbor →
        ∀ exits, f.exits[(here, index)]? = some exits → exits = c.exits m neighbor

/-- The finder with other remembered exits. -/
def withExits (f : RouteFinder) (exits : Std.HashMap (MapId × Nat) (List Cell)) : RouteFinder :=
  { f with exits := exits }

theorem borderExits_eq (hf : f.Charted) (hm : f.world.map? here = some m)
    (hc : m.connections[index]? = some c) (hn : f.world.map? c.target = some neighbor) :
    ∃ exits, f.borderExits here m neighbor index c = (c.exits m neighbor, f.withExits exits) ∧
      (f.withExits exits).Charted := by
  unfold borderExits
  cases h : f.exits[(here, index)]? with
  | some exits =>
    exact ⟨f.exits, by rw [hf _ _ _ _ _ hm hc hn _ h]; rfl, hf⟩
  | none =>
    refine ⟨_, rfl, fun here' m' index' c' neighbor' hm' hc' hn' exits' h' => ?_⟩
    rw [withExits, Std.HashMap.getElem?_insert] at h'
    split at h'
    · next heq =>
      obtain ⟨rfl, rfl⟩ := Prod.mk.inj (eq_of_beq heq)
      cases hm.symm.trans hm'
      cases hc.symm.trans hc'
      cases hn.symm.trans hn'
      exact (Option.some.inj h').symm
    · exact hf _ _ _ _ _ hm' hc' hn' _ h'

theorem borderCrossings_eq (hf : f.Charted) (hm : f.world.map? here = some m)
    {borders : List (Connection × Nat)}
    (hborders : ∀ c index, (c, index) ∈ borders → m.connections[index]? = some c) :
    ∃ exits, f.borderCrossings here m borders =
        (borders.flatMap fun border => f.world.borderCrossings m border.1, f.withExits exits) ∧
      (f.withExits exits).Charted := by
  induction borders generalizing f with
  | nil => exact ⟨f.exits, rfl, hf⟩
  | cons border rest ih =>
    obtain ⟨c, index⟩ := border
    have hrest c index (h : (c, index) ∈ rest) := hborders c index (List.mem_cons_of_mem _ h)
    rw [borderCrossings, List.flatMap_cons, World.borderCrossings]
    cases hn : f.world.map? c.target with
    | none => exact ih hf hm hrest
    | some neighbor =>
      obtain ⟨exits, hexits, hf'⟩ :=
        borderExits_eq hf hm (hborders c index List.mem_cons_self) hn
      obtain ⟨exits', hexits', hf''⟩ := ih hf' hm hrest
      exact ⟨exits', by simp only [hexits, hexits']; rfl, hf''⟩

/-- **Remembered exits make no difference** to the hops that leave a map. -/
theorem crossings_eq (hf : f.Charted) (hm : f.world.map? here = some m) :
    ∃ exits, f.crossings here m = (f.world.crossings m, f.withExits exits) ∧
      (f.withExits exits).Charted := by
  have hborders c index (h : (c, index) ∈ m.connections.toList.zipIdx) :
      m.connections[index]? = some c := by
    rwa [List.mem_zipIdx_iff_getElem?, Array.getElem?_toList] at h
  obtain ⟨exits, h, hf'⟩ := borderCrossings_eq hf hm hborders
  refine ⟨exits, ?_, hf'⟩
  simp only [crossings, h, World.crossings, ← List.flatMap_map Prod.fst, List.zipIdx_map_fst]
  rfl

end RouteFinder

end Cartridge
