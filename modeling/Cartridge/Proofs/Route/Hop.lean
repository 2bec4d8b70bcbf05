import Cartridge.Proofs.Walk.History
import Cartridge.Route.Navigator

/-!
# Hop — the walk that a hop takes

The finders of a navigator change from search to search, but each of them remains one of its map
(`Navigator.Tended`).  So the walk that a hop takes depends on the maps and on what the navigator
was told about the actors, and not on the walks that it has looked for before
(`Navigator.pathFor_eq`).
-/

namespace Cartridge.Navigator

variable {n : Navigator} {start : Spot} {edge : Edge} {id : MapId} {f : Finder}

/-- A navigator that has been told and asked nothing yet. -/
def fresh (w : World) (settings : WalkSettings) : Navigator where
  world := w
  settings := settings

/-! ## What a hop asks of a finder -/

/-- Where the walk that a hop takes is to end. -/
def hopGoal (n : Navigator) (g : WalkGraph) (start : Spot) : Edge → WalkGoal
  | .connection exit _ => ⟨Finder.nearest [exit], 0⟩
  | .warp _ warp => ⟨(·.steps warp.cell), if g.isStandable warp.cell then 0 else 1⟩
  | .person p => ⟨(·.steps (n.actorCell start.map p)), 1⟩
  | .position cell => ⟨(·.steps cell), 0⟩

/-- Every hop is a search of the finder. -/
theorem walk_eq (n : Navigator) (f : Finder) (start : Spot) (edge : Edge)
    (blocked : Cell → Bool) :
    n.walk f start edge blocked = f.search start.cell (n.hopGoal f.graph start edge) blocked := by
  cases edge <;> rfl

/-- The blocked cells of a map, as far as the navigator was told. -/
def blocked (n : Navigator) (id : MapId) : Cell → Bool :=
  ((n.occupancies[id]?).getD .free).blocks

/-- Later reports about a map replace earlier ones. -/
theorem blocked_setOccupancy (n : Navigator) (id : MapId) (o : Occupancy) :
    (n.setOccupancy id o).blocked id = o.blocks := by
  rw [blocked, setOccupancy, Std.HashMap.getElem?_insert_self, Option.getD_some]

/-- The walk that a hop takes on its map. -/
def hopWalk? (n : Navigator) (start : Spot) (edge : Edge) : Option (List Cell) :=
  (n.world.map? start.map).bind fun m =>
    Finder.walk? (.ofMap m n.settings) n.settings.maxExpansions start.cell
      (n.hopGoal (.ofMap m n.settings) start edge) (n.blocked start.map)

/-- Whether a hop can be walked. -/
def canWalk (n : Navigator) (start : Spot) (edge : Edge) : Bool :=
  (n.hopWalk? start edge).isSome

/-! ## The finders -/

/-- Every finder is that of its map, after some searches. -/
def Tended (n : Navigator) : Prop :=
  ∀ id f, n.finders[id]? = some f → ∃ m, n.world.map? id = some m ∧ Finder.Session m n.settings f

theorem tended_fresh (w : World) (settings : WalkSettings) : (fresh w settings).Tended := by
  intro id f hf
  simp [fresh] at hf

/-- The finder of a map is there if the map is, and it is tended. -/
theorem Tended.finder (h : n.Tended) (id : MapId) :
    (n.finder? id = none ∧ n.world.map? id = none) ∨
      ∃ f m, n.finder? id = some f ∧ n.world.map? id = some m ∧
        Finder.Session m n.settings f := by
  cases hfinder : n.finders[id]? with
  | some f =>
    obtain ⟨m, hm, hsession⟩ := h id f hfinder
    refine Or.inr ⟨f, m, ?_, hm, hsession⟩
    rw [finder?, hfinder]
  | none =>
    cases hm : n.world.map? id with
    | none =>
      refine Or.inl ⟨?_, rfl⟩
      rw [finder?, hfinder, hm]
      rfl
    | some m =>
      refine Or.inr ⟨_, m, ?_, rfl, .fresh⟩
      rw [finder?, hfinder, hm]
      rfl

/-- **The walk that a hop takes** does not depend on earlier searches. -/
theorem pathFor_eq (h : n.Tended) (start : Spot) (edge : Edge) :
    (n.pathFor start edge).1 = n.hopWalk? start edge := by
  unfold pathFor hopWalk?
  rcases h.finder start.map with ⟨hnone, hm⟩ | ⟨f, m, hf, hm, hsession⟩
  · rw [hnone, hm]
    rfl
  · rw [hf, hm, Option.bind_some]
    dsimp only
    rw [walk_eq, hsession.search_eq, hsession.keeps.1]
    rfl

/-- On a map that is there, a hop takes the walk that a search finds. -/
theorem pathFor_eq_walk (h : n.Tended) {m : Map} (hm : n.world.map? start.map = some m)
    (edge : Edge) :
    (n.pathFor start edge).1 =
      Finder.walk? (.ofMap m n.settings) n.settings.maxExpansions start.cell
        (n.hopGoal (.ofMap m n.settings) start edge) (n.blocked start.map) := by
  rw [pathFor_eq h, hopWalk?, hm, Option.bind_some]

/-- A new navigator takes the walk that a search on the free map finds. -/
theorem hopWalk_fresh {w : World} {settings : WalkSettings} {m : Map} {turns : Nat}
    {path? : Option (List Cell)} (hm : w.map? start.map = some m)
    (h : Finder.walkIn? (.ofMap m settings) turns start.cell
      ((fresh w settings).hopGoal (.ofMap m settings) start edge) Occupancy.free.blocks =
        some path?)
    (hturns : turns ≤ settings.maxExpansions) : (fresh w settings).hopWalk? start edge = path? := by
  have hblocked : (fresh w settings).blocked start.map = Occupancy.free.blocks := by
    rw [blocked, fresh, Std.HashMap.getElem?_empty, Option.getD_none]
  have hmap : (fresh w settings).world.map? start.map = some m := hm
  rw [hopWalk?, hmap, Option.bind_some, hblocked]
  exact Finder.walk?_of_walkIn? h hturns

variable (n) in
/-- The same navigator but for its finders, which are tended too. -/
structure SameActors (n' : Navigator) : Prop where
  tended : n'.Tended
  eq : ∃ finders, n' = { n with finders := finders }

namespace SameActors

variable {n' n'' : Navigator}

theorem refl (h : n.Tended) : n.SameActors n :=
  ⟨h, n.finders, rfl⟩

theorem trans (h : n.SameActors n') (h' : n'.SameActors n'') : n.SameActors n'' := by
  obtain ⟨-, finders, rfl⟩ := h
  obtain ⟨htended, finders', rfl⟩ := h'
  exact ⟨htended, finders', rfl⟩

theorem generation (h : n.SameActors n') : n'.generation = n.generation := by
  obtain ⟨-, finders, rfl⟩ := h
  rfl

/-- The walks of hops do not depend on the finders. -/
theorem hopWalk (h : n.SameActors n') (start : Spot) (edge : Edge) :
    n'.hopWalk? start edge = n.hopWalk? start edge := by
  obtain ⟨-, finders, rfl⟩ := h
  cases edge <;> rfl

theorem canWalk (h : n.SameActors n') : n'.canWalk = n.canWalk := by
  funext start edge
  rw [Navigator.canWalk, Navigator.canWalk, h.hopWalk]

end SameActors

/-- Looking for a walk changes only the finder of the map. -/
theorem Tended.pathFor (h : n.Tended) (start : Spot) (edge : Edge) :
    n.SameActors (n.pathFor start edge).2 := by
  unfold Navigator.pathFor
  rcases h.finder start.map with ⟨hnone, -⟩ | ⟨f, m, hf, hm, hsession⟩
  · rw [hnone]
    exact .refl h
  · rw [hf]
    refine ⟨fun id f' hf' => ?_, _, rfl⟩
    dsimp only at hf' ⊢
    rw [Std.HashMap.getElem?_insert] at hf'
    split at hf'
    · next hid =>
      obtain rfl : start.map = id := by simpa using hid
      cases hf'
      refine ⟨m, hm, ?_⟩
      rw [walk_eq]
      exact .search hsession _ _ _
    · exact h id f' hf'

/-- **The verdict on a hop** depends on the actors alone, and giving it changes only finders. -/
theorem SameActors.validate {n' : Navigator} (h : n.SameActors n') (start : Spot) (edge : Edge) :
    (n'.validate start edge).1 = n.canWalk start edge ∧
      n.SameActors (n'.validate start edge).2 := by
  have hverdict : (n'.validate start edge).1 = n'.canWalk start edge := by
    rw [Navigator.canWalk, ← pathFor_eq h.tended]
    rfl
  refine ⟨?_, h.trans (h.tended.pathFor start edge)⟩
  rw [hverdict, h.canWalk]

end Cartridge.Navigator
