import Cartridge.Proofs.Route.Journey
import Cartridge.Proofs.Walk.Span

/-!
# Arrival — where the walk of a hop ends

A hop says where its walk is to end: on the exit of a border, on a warp or on a cell, or next to a
person or to a warp that cannot be stood on (`Navigator.Ends`).  A player can talk across a counter,
so a walk may also stop in front of one that lies there; the finder allows that to every walk,
whatever it is for.  So a walk ends where its hop says exactly if it has not stopped in front of a
counter (`RouteFinder.hops_arrive`).
-/

namespace Cartridge

/-! ## Distances -/

namespace Cell

variable {a b : Cell}

/-- The first cell lies next to the second, in one of the four directions. -/
def NextTo (a b : Cell) : Prop :=
  ∃ d, a = b.move d

theorem steps_eq_zero_iff : a.steps b = 0 ↔ a = b := by
  obtain ⟨x, y⟩ := a
  obtain ⟨x', y'⟩ := b
  simp only [steps, mk.injEq]
  omega

theorem steps_eq_one_iff : a.steps b = 1 ↔ a.NextTo b := by
  obtain ⟨x, y⟩ := a
  obtain ⟨x', y'⟩ := b
  constructor
  · intro h
    simp only [steps] at h
    -- One of the two coordinates differs by one, and the other one is the same.
    have hsides : x = x' ∧ y = y' + 1 ∨ x = x' ∧ y = y' - 1 ∨ x = x' - 1 ∧ y = y' ∨
        x = x' + 1 ∧ y = y' := by omega
    rcases hsides with ⟨rfl, rfl⟩ | ⟨rfl, rfl⟩ | ⟨rfl, rfl⟩ | ⟨rfl, rfl⟩
    · exact ⟨.down, by simp [move, Direction.delta]⟩
    · exact ⟨.up, by simp [move, Direction.delta, Int.sub_eq_add_neg]⟩
    · exact ⟨.left, by simp [move, Direction.delta, Int.sub_eq_add_neg]⟩
    · exact ⟨.right, by simp [move, Direction.delta]⟩
  · rintro ⟨d, h⟩
    rw [h]
    cases d <;> simp only [steps, move, Direction.delta] <;> omega

/-- One step changes the distance to every cell. -/
theorem steps_move_ne (a b : Cell) (d : Direction) : (a.move d).steps b ≠ a.steps b := by
  cases d <;> simp only [steps, move, Direction.delta] <;> omega

end Cell

/-- The tile of a cell is that of a counter. -/
def Map.HasCounter (m : Map) (c : Cell) : Prop :=
  ∃ tile, m.tile? c = some tile ∧ tile.behavior = Tile.counter

namespace Finder

variable {g : WalkGraph} {goal : WalkGoal} {c : Cell}

/-- A walk may end at the goal and one step short of a counter there. -/
theorem reached_iff : reached g goal c = true ↔ goal.distance c = goal.target ∨
    goal.distance c = goal.target + 1 ∧
      ∃ d, goal.distance (c.move d) = goal.target ∧ g.map.HasCounter (c.move d) := by
  have hcounter (b : Cell) : (g.map.tile? b).any (·.behavior == Tile.counter) = true ↔
      g.map.HasCounter b := by
    rw [Option.any_eq_true]
    exact exists_congr fun tile => and_congr_right' beq_iff_eq
  simp only [reached, atCounter, Bool.or_eq_true, Bool.and_eq_true, beq_iff_eq, List.any_eq_true,
    hcounter, Direction.mem_inOrder, true_and]
  exact or_congr_right (and_congr_right' (exists_congr fun d => and_comm))

/-- Where a walk is when it has set out and gone on. -/
theorem getLast_setOut {start finish : Cell} {pushed? : Option Cell} {walked : List Cell}
    (h : (pushed?.getD start :: walked).getLast? = some finish) :
    (pushed?.toList ++ walked).getLast?.getD start = finish := by
  cases walked with
  | nil =>
    obtain rfl : pushed?.getD start = finish := by simpa using h
    cases pushed? <;> rfl
  | cons c walked =>
    rw [List.getLast?_cons_cons] at h
    rw [List.getLast?_append, h]
    rfl

end Finder

namespace Navigator

variable {n : Navigator} {g : WalkGraph} {start : Spot} {edge : Edge} {c : Cell} {m : Map}
  {path : List Cell}

/-- Where a hop is to end: on its exit, its cell or its warp, or next to its person or to a warp
that cannot be stood on. -/
def Ends (n : Navigator) (g : WalkGraph) (start : Spot) : Edge → Cell → Prop
  | .connection exit _, c => c = exit
  | .warp _ warp, c => if g.isStandable warp.cell then c = warp.cell else c.NextTo warp.cell
  | .person p, c => c.NextTo (n.actorCell start.map p)
  | .position cell, c => c = cell

/-- A walk is at its goal where its hop is to end. -/
theorem ends_iff : n.Ends g start edge c ↔
    (n.hopGoal g start edge).distance c = (n.hopGoal g start edge).target := by
  cases edge with
  | connection exit _ => exact Cell.steps_eq_zero_iff.symm
  | warp _ warp =>
    simp only [Ends, hopGoal]
    split
    · exact Cell.steps_eq_zero_iff.symm
    · exact Cell.steps_eq_one_iff.symm
  | person p => exact Cell.steps_eq_one_iff.symm
  | position cell => exact Cell.steps_eq_zero_iff.symm

/-- No two neighbouring cells are both where a hop is to end. -/
theorem not_ends_move (h : n.Ends g start edge c) (d : Direction) :
    ¬n.Ends g start edge (c.move d) := by
  rw [ends_iff] at h ⊢
  intro hnext
  have hsame := hnext.trans h.symm
  cases edge with
  | connection exit _ => exact Cell.steps_move_ne c exit d hsame
  | warp _ warp => exact Cell.steps_move_ne c warp.cell d hsame
  | person p => exact Cell.steps_move_ne c _ d hsame
  | position cell => exact Cell.steps_move_ne c cell d hsame

/-- The walk of a hop ends at its goal. -/
theorem reached_of_pathFor (h : n.Tended) (hm : n.world.map? start.map = some m)
    (hr : (n.pathFor start edge).1 = some path) :
    Finder.reached (.ofMap m n.settings) (n.hopGoal (.ofMap m n.settings) start edge)
      (path.getLast?.getD start.cell) = true := by
  rw [pathFor_eq_walk h hm] at hr
  obtain ⟨walked, finish, rfl, hleads, -, hreached⟩ :=
    Finder.walk?_leads (WalkGraph.placed_ofMap m n.settings) hr
  rwa [Finder.getLast_setOut hleads.last]

/-- **Where a walk ends**: as its hop says, or else in front of a counter. -/
theorem ends_iff_not_inFront (h : n.Tended) (hm : n.world.map? start.map = some m)
    (hr : (n.pathFor start edge).1 = some path) :
    n.Ends (.ofMap m n.settings) start edge (path.getLast?.getD start.cell) ↔
      ¬∃ d, n.Ends (.ofMap m n.settings) start edge ((path.getLast?.getD start.cell).move d) ∧
        m.HasCounter ((path.getLast?.getD start.cell).move d) := by
  have hreached := reached_of_pathFor h hm hr
  constructor
  · rintro hends ⟨d, hnext, -⟩
    exact not_ends_move hends d hnext
  · intro hfront
    rcases Finder.reached_iff.mp hreached with hthere | ⟨-, d, hnext, hcounter⟩
    · exact ends_iff.mpr hthere
    · exact absurd ⟨d, ends_iff.mpr hnext, hcounter⟩ hfront

end Navigator

namespace RouteFinder

/-! ## Last hops -/

section Steps

variable {σ : Type} {guide : Guide σ} {f : RouteFinder} {s : σ} {start : Spot} {step : RouteStep}

/-- What some goal asks for at a place. -/
def Asked (here : Spot) (rest : List RouteStep) : Prop :=
  ∃ goal : Goal, goal.rest? here = some rest

/-- **A route is a trail and what its goal has asked for** where the trail ends. -/
theorem exists_trail (hf : f.Charted) {route : List RouteStep}
    (hr : (search guide f s start).1 = some route) :
    ∃ hops here rest, route = hops ++ rest ∧ f.world.Trail start hops here ∧ Asked here rest := by
  obtain ⟨route?, f', s', hrun⟩ : ∃ route? f' s', search guide f s start = (route?, f', s') :=
    ⟨_, _, _, rfl⟩
  rw [hrun] at hr
  obtain ⟨-, q, ⟨-, hq⟩, hroute⟩ := explore_induction
    (P := fun f' _ q => f'.world = f.world ∧ ∀ c ∈ q, c.Follows f.world Asked start)
    (fun f' s q exits h => h)
    (fun f' s q q' h hsub => ⟨h.1, fun c hc => h.2 c (hsub.subset hc)⟩)
    (fun f' s q c step h _ _ _ => h)
    (fun f' s q c m h hc hm => by
      obtain ⟨hworld, h⟩ := h
      refine ⟨hworld, fun d hd => ?_⟩
      rw [hworld] at hm hd
      have hcandidate := h c List.mem_cons_self
      rcases List.mem_append.mp hd with hd | hd
      · rcases List.mem_append.mp hd with hd | hd
        · exact h d (List.mem_cons_of_mem _ hd)
        · exact hcandidate.completed hc (fun rest hrest => ⟨_, hrest⟩) hd
      · exact hcandidate.successors hc hm hd)
    _ (hf.atGeneration _)
    ⟨world_atGeneration _, by
      rw [Queue.toList_ofList]
      intro c hc
      exact List.mem_singleton.mp hc ▸ RouteCandidate.Follows.first⟩ hrun
  obtain ⟨c, hc, hcomplete, hform, -⟩ := hroute route hr
  obtain ⟨hops, rest, hcandidate, htrail, -, hasked⟩ := (hq c hc).of_complete hcomplete
  refine ⟨hops, c.spot, rest, ?_, htrail, hasked⟩
  rw [hform, hcandidate]
  exact List.reverse_reverse _

/-- A hop of a route that is to end on a cell leads to the place of that cell. -/
theorem finish_of_position (hf : f.Charted) {route : List RouteStep}
    (hr : (search guide f s start).1 = some route) (hstep : step ∈ route) {cell : Cell}
    (hedge : step.edge = .position cell) : step.finish = ⟨cell, step.start.map⟩ := by
  obtain ⟨hops, here, rest, rfl, htrail, goal, hgoal⟩ := exists_trail hf hr
  rcases List.mem_append.mp hstep with hstep | hstep
  · -- The hops of a trail leave their map.
    obtain ⟨m, -, hcross⟩ := htrail.crosses step hstep
    rw [World.mem_crossings_iff, hedge] at hcross
    cases hcross
  · cases goal with
    | notYet => cases hgoal
    | reached =>
      cases hgoal
      exact absurd hstep List.not_mem_nil
    | approach edge =>
      cases hgoal
      obtain rfl := List.mem_singleton.mp hstep
      obtain rfl : edge = .position cell := hedge
      rfl

end Steps

/-! ## Hops -/

variable {w : World} {settings : WalkSettings} {size : Nat} {n : Navigator} {f : RouteFinder}

/-- **Where the walk of a hop ends**, whatever the navigator and the route finder have been used for
before: as the hop says, unless the walk has stopped in front of a counter that lies there.  And a
hop of a route that is to end on a cell leads to the place of that cell. -/
theorem hops_arrive (h : Journey w settings size n f) :
    (∀ (start : Spot) (edge : Edge) (m : Map) (path : List Cell), w.map? start.map = some m →
      (n.pathFor start edge).1 = some path →
      (n.Ends (.ofMap m settings) start edge (path.getLast?.getD start.cell) ↔
        ¬∃ d, n.Ends (.ofMap m settings) start edge ((path.getLast?.getD start.cell).move d) ∧
          m.HasCounter ((path.getLast?.getD start.cell).move d))) ∧
    ∀ {τ : Type} (check : τ → Map → Spot → Goal × τ) (t : τ) (start : Spot)
      (route : List RouteStep),
      (search (Navigator.validator.guide check) f (n, t) start).1 = some route →
      ∀ step ∈ route, ∀ cell, step.edge = .position cell →
        step.finish = ⟨cell, step.start.map⟩ := by
  obtain ⟨rfl, rfl⟩ := h.world_eq
  refine ⟨fun start edge m path hm hpath => ?_, fun check t start route hr step hstep cell => ?_⟩
  · exact Navigator.ends_iff_not_inFront h.informed.tended hm hpath
  · exact finish_of_position h.informed.charted hr hstep

/-- A shop with a counter that one can also walk on, at the border to the street and next to a door
in the wall. -/
def shop : Map :=
  { Map.ofTiles ⟨0, 0⟩ 2 2 #[.ground, .withBehavior Tile.counter, .ground, .wall] with
    warps := #[⟨1, 1, 0, 0, ⟨0, 1⟩⟩]
    connections := #[⟨.right, 0, ⟨0, 1⟩⟩] }

/-- The shop and the street. -/
def market : World where
  banks := #[#[shop, .ofTiles ⟨0, 1⟩ 1 1 #[.ground]]]

/-- In the corner of the shop, in front of the counter. -/
def inShop : Spot :=
  ⟨⟨0, 0⟩, ⟨0, 0⟩⟩

/-- What a search in the shop gives, the hop takes as its walk. -/
theorem pathFor_inShop {edge : Edge} {path : List Cell}
    (h : Finder.walkIn? (.ofMap shop {}) 10 inShop.cell
      ((Navigator.fresh market {}).hopGoal (.ofMap shop {}) inShop edge) Occupancy.free.blocks =
        some (some path)) :
    ((Navigator.fresh market {}).pathFor inShop edge).1 = some path := by
  rw [Navigator.pathFor_eq (Navigator.tended_fresh market {})]
  exact Navigator.hopWalk_fresh rfl h (by decide)

theorem hops_arrive_inShop :
    Journey market {} 100 (.fresh market {}) (.fresh market 100) ∧
    ((Navigator.fresh market {}).pathFor inShop (.position ⟨0, 1⟩)).1 = some [⟨0, 1⟩] ∧
    (Navigator.fresh market {}).Ends (.ofMap shop {}) inShop (.position ⟨0, 1⟩) ⟨0, 1⟩ := by
  have hpath : ((Navigator.fresh market {}).pathFor inShop (.position ⟨0, 1⟩)).1 =
      some [⟨0, 1⟩] := pathFor_inShop (by decide +kernel)
  have hjourney : Journey market {} 100 (.fresh market {}) (.fresh market 100) := .fresh
  have hends := (hops_arrive hjourney).1 inShop (.position ⟨0, 1⟩) shop _ rfl hpath
  refine ⟨hjourney, hpath, hends.mpr ?_⟩
  rintro ⟨d, hnext, -⟩
  cases d <;> cases hnext

/-- In front of the counter the hop seems done, and it is not. -/
def StopsShort (edge : Edge) : Prop :=
  ((Navigator.fresh market {}).pathFor inShop edge).1 = some [] ∧
    ¬(Navigator.fresh market {}).Ends (.ofMap shop {}) inShop edge inShop.cell

/-- **A counter can keep a hop from where it is to end**: onto the counter itself, over the border
behind it, and next to the door beside it. -/
theorem hops_stop_short :
    StopsShort (.position ⟨1, 0⟩) ∧ StopsShort (.connection ⟨1, 0⟩ ⟨.right, 0, ⟨0, 1⟩⟩) ∧
      StopsShort (.warp 0 ⟨1, 1, 0, 0, ⟨0, 1⟩⟩) := by
  have hshort {edge : Edge}
      (hwalk : Finder.walkIn? (.ofMap shop {}) 10 inShop.cell
        ((Navigator.fresh market {}).hopGoal (.ofMap shop {}) inShop edge) Occupancy.free.blocks =
          some (some []))
      (hfar : ((Navigator.fresh market {}).hopGoal (.ofMap shop {}) inShop edge).distance
          inShop.cell ≠
        ((Navigator.fresh market {}).hopGoal (.ofMap shop {}) inShop edge).target) :
      StopsShort edge :=
    ⟨pathFor_inShop hwalk, Navigator.ends_iff.not.mpr hfar⟩
  refine ⟨?position, ?connection, ?warp⟩
  case position => exact hshort (by decide +kernel) (by decide +kernel)
  case connection => exact hshort (by decide +kernel) (by decide +kernel)
  case warp => exact hshort (by decide +kernel) (by decide +kernel)

end RouteFinder

end Cartridge
