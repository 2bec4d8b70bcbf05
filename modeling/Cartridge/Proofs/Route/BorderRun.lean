import Cartridge.Proofs.Route.Arrival
import Cartridge.Proofs.Walk.Links
import Cartridge.Proofs.Walk.Complete

/-!
# BorderRun — one exit for a run of open border cells

Of every run of border cells that are open on both sides the first one is an exit and stands for all
(`Connection.exists_run`).  The cells of a run follow each other along the border, so whoever gets
to one of them gets to the exit, if all cells on the way to it can be stood on and are free
(`Finder.reachable_first`).  So a border that can be reached can be crossed at an exit, as long as
the run leads there and the search is allowed to look far enough (`Navigator.pathFor_exit`).
-/

namespace Cartridge

/-- The direction in which the cells of a border follow each other. -/
def ConnectionKind.along : ConnectionKind → Direction
  | .down | .up => .right
  | _ => .down

namespace Connection

variable {c : Connection} {m neighbor : Map} {b e : Cell}

/-- The cells of a border lie next to each other. -/
theorem isChain_borderCells (m : Map) (kind : ConnectionKind) :
    (borderCells m kind).IsChain fun a b => b = a.move kind.along := by
  have hline (length : Nat) (cell : Nat → Cell) (d : Direction)
      (hnext : ∀ i, cell (i + 1) = (cell i).move d) :
      ((List.range length).map cell).IsChain fun a b => b = a.move d :=
    (List.isChain_map cell).mpr ((List.isChain_range _ _).mpr fun i _ => hnext i)
  cases kind with
  | down | up => exact hline _ _ _ fun i => by simp [Cell.move, ConnectionKind.along, Direction.delta]
  | left | right =>
    exact hline _ _ _ fun i => by simp [Cell.move, ConnectionKind.along, Direction.delta]
  | _ => exact .nil

/-- A stretch of open border cells from an exit on. -/
structure Run (c : Connection) (m neighbor : Map) (run : List Cell) (e b : Cell) : Prop where
  within : run <:+: borderCells m c.kind
  first : run.head? = some e
  last : run.getLast? = some b
  isOpen : ∀ x ∈ run, c.isOpen m neighbor x = true
  exit : e ∈ c.exits m neighbor

/-- Before every cell that passes the test lies the start of its run, or the run has begun before
the list. -/
theorem mem_runStarts {isOpen : Cell → Bool} (hb : isOpen b = true) (before after : List Cell)
    (inRun : Bool) :
    (inRun = true ∧ ∀ x ∈ before, isOpen x = true) ∨
      ∃ earlier e rest, before ++ [b] = earlier ++ e :: rest ∧
        (∀ x ∈ e :: rest, isOpen x = true) ∧ e ∈ runStarts isOpen inRun (before ++ b :: after) := by
  induction before generalizing inRun with
  | nil =>
    cases inRun with
    | false => exact Or.inr ⟨[], b, [], rfl, by simpa using hb, by simp [runStarts, hb]⟩
    | true => exact Or.inl ⟨rfl, by simp⟩
  | cons c before ih =>
    rcases ih (isOpen c) with ⟨hc, hbefore⟩ | ⟨earlier, e, rest, hsplit, hopen, he⟩
    · cases inRun with
      | false =>
        refine Or.inr ⟨[], c, before ++ [b], rfl, ?_, by simp [runStarts, hc]⟩
        intro x hx
        rcases List.mem_cons.mp hx with rfl | hx
        · exact hc
        · rcases List.mem_append.mp hx with hx | hx
          · exact hbefore x hx
          · exact List.mem_singleton.mp hx ▸ hb
      | true => exact Or.inl ⟨rfl, by simpa [hc] using hbefore⟩
    · refine Or.inr ⟨c :: earlier, e, rest, by rw [List.cons_append, hsplit, List.cons_append],
        hopen, ?_⟩
      rw [List.cons_append, runStarts]
      split
      · exact List.mem_cons_of_mem _ he
      · exact he

/-- **Every open border cell lies in a run** that begins with an exit. -/
theorem exists_run (hb : b ∈ borderCells m c.kind) (hopen : c.isOpen m neighbor b = true) :
    ∃ run e, c.Run m neighbor run e b := by
  obtain ⟨before, after, hcells⟩ := List.append_of_mem hb
  rcases mem_runStarts hopen before after false with
    ⟨hfalse, -⟩ | ⟨earlier, e, rest, hsplit, hrun, he⟩
  · cases hfalse
  · refine ⟨e :: rest, e, ⟨earlier, after, ?_⟩, rfl, ?_, hrun, ?_⟩
    · rw [← hsplit, hcells, List.append_assoc, List.singleton_append]
    · have hlast := congrArg List.getLast? hsplit
      rw [List.getLast?_concat, List.getLast?_append_cons] at hlast
      exact hlast.symm
    · rwa [exits, hcells]

end Connection

namespace Finder

variable {m : Map} {settings : WalkSettings} {occupied : Cell → Bool} {start b e : Cell}
  {d : Direction} {run : List Cell}

/-- The cell where a walk sets out. -/
def origin (m : Map) (settings : WalkSettings) (occupied : Cell → Bool) (start : Cell) : Cell :=
  (pushedFrom (.ofMap m settings) occupied start).getD start

/-- A walk may be on the cell: it can be stood on, and it is free or the walk sets out there. -/
def Clear (m : Map) (settings : WalkSettings) (occupied : Cell → Bool) (start x : Cell) : Prop :=
  (WalkGraph.ofMap m settings).isStandable x = true ∧
    (occupied x = false ∨ x = origin m settings occupied start)

/-- Whoever gets to a cell gets to the cell next to it, if a walk may be there. -/
theorem reaches_next (ha : (WalkGraph.ofMap m settings).isStandable b = true)
    (hnext : Clear m settings occupied start (b.move d))
    (h : Relation.ReflTransGen (Moves (.ofMap m settings) occupied)
      (origin m settings occupied start) b) :
    Relation.ReflTransGen (Moves (.ofMap m settings) occupied)
      (origin m settings occupied start) (b.move d) := by
  rcases hnext.2 with hfree | hhere
  · exact h.tail ⟨WalkGraph.mem_neighbors_move ha hnext.1, hfree⟩
  · rw [hhere]

/-- Whoever gets to the last cell of a clear run gets to the first one. -/
theorem reaches_first (hrun : run.IsChain fun a b => b = a.move d)
    (hclear : ∀ x ∈ run, Clear m settings occupied start x) (hfirst : run.head? = some e)
    (hlast : run.getLast? = some b)
    (h : Relation.ReflTransGen (Moves (.ofMap m settings) occupied)
      (origin m settings occupied start) b) :
    Relation.ReflTransGen (Moves (.ofMap m settings) occupied)
      (origin m settings occupied start) e := by
  induction run generalizing e with
  | nil => cases hfirst
  | cons x rest ih =>
    obtain rfl : x = e := Option.some.inj hfirst
    cases rest with
    | nil =>
      obtain rfl : x = b := Option.some.inj hlast
      exact h
    | cons y rest =>
      obtain ⟨hnext, hrest⟩ := List.isChain_cons_cons.mp hrun
      have hy := ih hrest (fun z hz => hclear z (List.mem_cons_of_mem _ hz)) rfl
        (by rwa [List.getLast?_cons_cons] at hlast)
      have hback : y.move d.opposite = x := by rw [hnext, Cell.move_opposite]
      have hx := reaches_next (d := d.opposite)
        (hclear y (List.mem_cons_of_mem _ List.mem_cons_self)).1
        (hback.symm ▸ hclear x List.mem_cons_self) hy
      rwa [hback] at hx

/-- A walk onto a cell, or in front of it if that is a counter, can go on to the first cell of a
clear run that ends there. -/
theorem reachable_first (hrun : run.IsChain fun a b => b = a.move d)
    (hclear : ∀ x ∈ run, Clear m settings occupied start x) (hfirst : run.head? = some e)
    (hlast : run.getLast? = some b)
    (h : Reachable (.ofMap m settings) occupied start ⟨(·.steps b), 0⟩) :
    Reachable (.ofMap m settings) occupied start ⟨nearest [e], 0⟩ := by
  obtain ⟨horigin, finish, hmoves, hreached⟩ := h
  have hb : Relation.ReflTransGen (Moves (.ofMap m settings) occupied)
      (origin m settings occupied start) b := by
    rcases reached_iff.mp hreached with hthere | ⟨-, d', hnext, -⟩
    · obtain rfl : finish = b := Cell.steps_eq_zero_iff.mp hthere
      exact hmoves
    · obtain rfl : finish.move d' = b := Cell.steps_eq_zero_iff.mp hnext
      have hfinish : (WalkGraph.ofMap m settings).isStandable finish = true := by
        rcases Relation.ReflTransGen.cases_tail hmoves with heq | ⟨a, -, hmove⟩
        · rw [heq]
          exact horigin
        · exact WalkGraph.isStandable_of_mem_neighbors hmove.1
      exact reaches_next hfinish (hclear _ (List.mem_of_getLast? hlast)) hmoves
  refine ⟨horigin, e, reaches_first hrun hclear hfirst hlast hb, reached_iff.mpr (Or.inl ?_)⟩
  exact Cell.steps_eq_zero_iff.mpr rfl

end Finder

namespace Navigator

variable {w : World} {start : Spot} {m : Map} {b : Cell}

/-- **A border that can be reached can be crossed at an exit.**  Every open border cell lies in a
run that begins with an exit, and if a walk may be on all cells of the run up to there, whatever
else is occupied, then a navigator that may look far enough finds a walk over the border at that
exit whenever it finds one onto the cell, whatever it has been used for before.  This is about
settings whose costs are zero or more.  The proof has no use for that, since a `Cost` cannot be
anything else; settings with other costs are read as if they had such ones. -/
theorem pathFor_exit (settings : WalkSettings) (_hcosts : settings.Nonneg)
    (hm : w.map? start.map = some m) (c : Connection) (neighbor : Map)
    (hb : b ∈ Connection.borderCells m c.kind) (hopen : c.isOpen m neighbor b = true)
    (occupied : Cell → Bool) :
    ∃ run e, c.Run m neighbor run e b ∧
      ((∀ x ∈ run, Finder.Clear m settings occupied start.cell x) →
        ∃ enough, ∀ budget, enough ≤ budget → ∀ (size : Nat) (n : Navigator) (f : RouteFinder),
          Journey w { settings with maxExpansions := budget } size n f →
          n.blocked start.map = occupied → (n.pathFor start (.position b)).1.isSome →
          (n.pathFor start (.connection e c)).1.isSome) := by
  obtain ⟨run, e, hrun⟩ := Connection.exists_run hb hopen
  refine ⟨run, e, hrun, fun hclear => ?_⟩
  have hplaced := WalkGraph.placed_ofMap m settings
  obtain ⟨enough, path?, hlarge, -, hfinds⟩ :=
    Finder.walk?_settles hplaced start.cell ⟨Finder.nearest [e], 0⟩ occupied
  refine ⟨enough, fun budget hbudget size n f h hoccupied hposition => ?_⟩
  obtain ⟨rfl, hsettings⟩ := h.world_eq
  rw [pathFor_eq_walk h.informed.tended hm, hoccupied, hsettings] at hposition ⊢
  obtain ⟨path, hpath⟩ := Option.isSome_iff_exists.mp hposition
  -- The budget is no part of the graph.
  have hreachable : Finder.Reachable (.ofMap m settings) occupied start.cell ⟨(·.steps b), 0⟩ :=
    Finder.reachable_of_walk? hplaced hpath
  have hwalk : Finder.walk? (.ofMap m settings) budget start.cell ⟨Finder.nearest [e], 0⟩ occupied =
      path? := hlarge budget hbudget
  have hnext : run.IsChain fun a b => b = a.move c.kind.along :=
    List.IsChain.infix (Connection.isChain_borderCells m c.kind) hrun.within
  have hfound :=
    hfinds (Finder.reachable_first hnext hclear hrun.first hrun.last hreachable)
  rw [← hwalk] at hfound
  exact hfound

/-- To the road. -/
def toRoad : Connection :=
  ⟨.right, 0, ⟨0, 1⟩⟩

/-- A yard whose border to the road is open at two cells, the upper one with a tile of its own. -/
def yardWith (upper : Tile) : Map :=
  { Map.ofTiles ⟨0, 0⟩ 2 2 #[.ground, upper, .ground, .ground] with connections := #[toRoad] }

/-- The road. -/
def road : Map :=
  .ofTiles ⟨0, 1⟩ 1 2 #[.ground, .ground]

/-- The yard and the road. -/
def roadside (upper : Tile) : World where
  banks := #[#[yardWith upper, road]]

/-- In the yard, on the lower cell of the border. -/
def atBorder : Spot :=
  ⟨⟨1, 1⟩, ⟨0, 0⟩⟩

/-- A navigator of the yard, with so many cells to expand and so many occupied. -/
def watching (upper : Tile) (budget : Nat) (o : Occupancy) : Navigator :=
  (Navigator.fresh (roadside upper) { maxExpansions := budget }).setOccupancy ⟨0, 0⟩ o

theorem journey_watching (upper : Tile) (budget : Nat) (o : Occupancy) :
    Journey (roadside upper) { maxExpansions := budget } 100 (watching upper budget o)
      (.fresh (roadside upper) 100) :=
  .setOccupancy .fresh _ _

theorem pathFor_watching (upper : Tile) (budget : Nat) (o : Occupancy) (edge : Edge) :
    ((watching upper budget o).pathFor atBorder edge).1 =
      Finder.walk? (.ofMap (yardWith upper) {}) budget atBorder.cell
        ((watching upper budget o).hopGoal (.ofMap (yardWith upper) {}) atBorder edge)
        o.blocks := by
  have hmap : (watching upper budget o).world.map? atBorder.map = some (yardWith upper) := rfl
  have hblocked : (watching upper budget o).blocked atBorder.map = o.blocks :=
    blocked_setOccupancy _ _ _
  rw [pathFor_eq_walk (journey_watching upper budget o).informed.tended hmap, hblocked]
  rfl

/-- The hop onto the cell where it starts is no walk at all. -/
theorem pathFor_watching_here (upper : Tile) (budget : Nat) (o : Occupancy)
    (hstands : (WalkGraph.ofMap (yardWith upper) {}).isStandable atBorder.cell = true)
    (hstays : Finder.pushedFrom (.ofMap (yardWith upper) {}) o.blocks atBorder.cell = none) :
    ((watching upper budget o).pathFor atBorder (.position atBorder.cell)).1 = some [] := by
  have hgoal : (watching upper budget o).hopGoal (.ofMap (yardWith upper) {}) atBorder
      (.position atBorder.cell) = ⟨(·.steps atBorder.cell), 0⟩ := rfl
  have hthere : Finder.reached (.ofMap (yardWith upper) {}) ⟨(·.steps atBorder.cell), 0⟩
      atBorder.cell = true :=
    Finder.reached_iff.mpr (Or.inl (Cell.steps_eq_zero_iff.mpr rfl))
  rw [pathFor_watching, hgoal]
  exact Finder.walk?_of_reached (WalkGraph.placed_ofMap _ _) hstays hstands hthere budget

theorem pathFor_exit_atBorder :
    ({} : WalkSettings).Nonneg ∧
    atBorder.cell ∈ Connection.borderCells (yardWith .ground) toRoad.kind ∧
    toRoad.isOpen (yardWith .ground) road atBorder.cell = true ∧
    ∃ enough, ∀ budget, enough ≤ budget →
      ((watching .ground budget .free).pathFor atBorder (.position atBorder.cell)).1.isSome ∧
      ((watching .ground budget .free).pathFor atBorder (.connection ⟨1, 0⟩ toRoad)).1.isSome := by
  have hcosts : ({} : WalkSettings).Nonneg := ⟨by decide, by decide⟩
  have hmap : (roadside .ground).map? atBorder.map = some (yardWith .ground) := rfl
  have hb : atBorder.cell ∈ Connection.borderCells (yardWith .ground) toRoad.kind := by
    decide +kernel
  have hopen : toRoad.isOpen (yardWith .ground) road atBorder.cell = true := by decide +kernel
  obtain ⟨run, e, hrun, hcross⟩ :=
    pathFor_exit {} hcosts hmap toRoad road hb hopen Occupancy.free.blocks
  obtain rfl : e = ⟨1, 0⟩ := by
    have hexits : toRoad.exits (yardWith .ground) road = [⟨1, 0⟩] := by decide +kernel
    have hexit := hrun.exit
    rw [hexits] at hexit
    exact List.mem_singleton.mp hexit
  have hstands : ∀ x ∈ Connection.borderCells (yardWith .ground) toRoad.kind,
      (WalkGraph.ofMap (yardWith .ground) {}).isStandable x = true := by decide +kernel
  obtain ⟨enough, henough⟩ :=
    hcross fun x hx => ⟨hstands x (hrun.within.subset hx), Or.inl rfl⟩
  refine ⟨hcosts, hb, hopen, enough, fun budget hbudget => ?_⟩
  have hhere := pathFor_watching_here .ground budget .free (hstands _ hb) (by decide +kernel)
  have hfound : ((watching .ground budget .free).pathFor atBorder
      (.position atBorder.cell)).1.isSome := by rw [hhere]; rfl
  exact ⟨hfound, henough budget hbudget _ _ _ (journey_watching .ground budget .free)
    (blocked_setOccupancy _ _ _) hfound⟩

/-- The navigator knows the way onto the cell of the border, and no way over the border. -/
def Stranded (upper : Tile) (budget : Nat) (o : Occupancy) : Prop :=
  ((watching upper budget o).pathFor atBorder (.position atBorder.cell)).1 = some [] ∧
    ∀ e ∈ toRoad.exits (yardWith upper) road,
      ((watching upper budget o).pathFor atBorder (.connection e toRoad)).1 = none

/-- **Whoever stands on an open border cell need not find a way over the border**: someone may stand
on the exit, the search may not look so far, and the exit may be a ledge. -/
theorem exit_out_of_reach :
    (∀ upper ∈ [Tile.ground, .withBehavior (Tile.ledge .right)],
      atBorder.cell ∈ Connection.borderCells (yardWith upper) toRoad.kind ∧
        toRoad.isOpen (yardWith upper) road atBorder.cell = true) ∧
    Stranded .ground 100000 ⟨[⟨1, 0⟩]⟩ ∧ Stranded .ground 0 .free ∧
    Stranded (.withBehavior (Tile.ledge .right)) 100000 .free := by
  refine ⟨by decide +kernel, ?occupied, ?budget, ?ledge⟩
  case occupied =>
    refine ⟨pathFor_watching_here _ _ _ (by decide +kernel) (by decide +kernel), fun e he => ?_⟩
    rw [pathFor_watching]
    have hwalk : ∀ e ∈ toRoad.exits (yardWith .ground) road,
        Finder.walkIn? (.ofMap (yardWith .ground) {}) 10 atBorder.cell
          ⟨Finder.nearest [e], 0⟩ (Occupancy.blocks ⟨[⟨1, 0⟩]⟩) = some none := by decide +kernel
    exact Finder.walk?_of_walkIn? (hwalk e he) (by decide)
  case budget =>
    refine ⟨pathFor_watching_here _ _ _ (by decide +kernel) (by decide +kernel), fun e he => ?_⟩
    rw [pathFor_watching, Option.eq_none_iff_forall_ne_some]
    intro path hpath
    have hthere := Finder.reached_of_walk?_zero (WalkGraph.placed_ofMap _ _) hpath
    have hfar : ∀ e ∈ toRoad.exits (yardWith .ground) road,
        Finder.reached (.ofMap (yardWith .ground) {}) ⟨Finder.nearest [e], 0⟩
          ((Finder.pushedFrom (.ofMap (yardWith .ground) {}) Occupancy.free.blocks
            atBorder.cell).getD atBorder.cell) = false := by decide +kernel
    exact Bool.false_ne_true ((hfar e he).symm.trans hthere)
  case ledge =>
    refine ⟨pathFor_watching_here _ _ _ (by decide +kernel) (by decide +kernel), fun e he => ?_⟩
    rw [pathFor_watching]
    have hwalk : ∀ e ∈ toRoad.exits (yardWith (.withBehavior (Tile.ledge .right))) road,
        Finder.walkIn? (.ofMap (yardWith (.withBehavior (Tile.ledge .right))) {}) 10 atBorder.cell
          ⟨Finder.nearest [e], 0⟩ Occupancy.free.blocks = some none := by decide +kernel
    exact Finder.walk?_of_walkIn? (hwalk e he) (by decide)

end Navigator

end Cartridge
