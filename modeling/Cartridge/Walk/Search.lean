import Cartridge.Actor.Occupancy
import Cartridge.Walk.Frontier
import Cartridge.Walk.Graph

/-!
# Finder — the cheapest walk to a cell at a given distance

A search expands the node with the smallest sum of the cost so far and the distance still missing,
and takes up a node again when it finds a cheaper way to it.  A finder keeps its labels from one
search to the next and clears them only when another search begins.  Whether a cell is occupied it
looks up once in a search.
-/

namespace Cartridge

/-- What a search knows about a node. -/
structure Label where
  /-- The cost of the best way found so far; none while the node is unseen. -/
  weight? : Option Cost := none
  /-- The node before this one on that way. -/
  cameFrom? : Option Nat := none
  /-- Whether the node has been expanded since its best way was found. -/
  closed : Bool := false
deriving DecidableEq

/-- What a search is after: a cell at a distance of exactly `target`.  Distances and targets have no
bounds here, so a search whose distances do not fit in 32 bits, or lie so near to their bounds that
the target plus one or a difference does not, is out of scope. -/
structure WalkGoal where
  distance : Cell → Int
  target : Int

/-- The graph of a map and the labels of the last search. -/
structure Finder where
  graph : WalkGraph
  maxExpansions : Nat
  labels : Array Label
  /-- Whether the cells of nodes were occupied, as far as the last search has looked that up. -/
  verdicts : Array (Option Bool)
  /-- Whether labels and verdicts are those of an earlier search. -/
  used : Bool

namespace Finder

/-- The labels before a search. -/
def blankLabels (g : WalkGraph) : Array Label :=
  Array.replicate g.nodes.size {}

/-- The verdicts before a search. -/
def blankVerdicts (g : WalkGraph) : Array (Option Bool) :=
  Array.replicate g.nodes.size none

/-- A finder for a map that has searched nothing yet. -/
def ofMap (m : Map) (settings : WalkSettings) : Finder :=
  let g := WalkGraph.ofMap m settings
  { graph := g
    maxExpansions := settings.maxExpansions
    labels := blankLabels g
    verdicts := blankVerdicts g
    used := false }

/-- The finder without what an earlier search has left behind. -/
def cleared (f : Finder) : Finder :=
  if f.used then
    { f with labels := blankLabels f.graph, verdicts := blankVerdicts f.graph }
  else f

section Search

variable (g : WalkGraph) (occupied : Cell → Bool) (goal : WalkGoal)

/-- Whether a counter next to the cell lies at the distance that is searched for, and the cell one
step farther. -/
def atCounter (c : Cell) : Bool :=
  goal.distance c == goal.target + 1 &&
    Direction.inOrder.any fun d =>
      (g.map.tile? (c.move d)).any (·.behavior == Tile.counter) &&
        goal.distance (c.move d) == goal.target

/-- Whether a walk may end on the cell. -/
def reached (c : Cell) : Bool :=
  goal.distance c == goal.target || atCounter g goal c

/-- Where a walk starts: a warp pushes the player off in its direction if there is room. -/
def pushedFrom (start : Cell) : Option Cell := do
  let tile ← g.map.tile? start
  let d ← Tile.push? tile.behavior
  let stepped := start.move d
  if g.isStandable stepped && !occupied stepped then some stepped else none

/-- Where a search stands: labels, waiting candidates, and how many have arrived so far. -/
structure Progress where
  labels : Array Label
  frontier : Frontier
  arrivals : Nat

/-- Looks at one node next to an expanded one and takes it up if the way through that one is the
first or a cheaper one. -/
def relax (source : Nat) (weight : Cost) (p : Progress) (next : Nat) : Progress :=
  match WalkGraph.node? g.nodes next with
  | none => p
  | some n =>
    if occupied n.cell then p
    else
      let cost := weight.add n.cost
      let isBetter :=
        match (p.labels[next]?).bind (·.weight?) with
        | none => true
        | some known => cost.less known
      if isBetter then
        let missing := (goal.distance n.cell - goal.target).natAbs
        { labels := p.labels.setIfInBounds next { weight? := some cost, cameFrom? := some source }
          frontier := p.frontier.push ⟨cost.add (.ofNat missing), p.arrivals + 1, next⟩
          arrivals := p.arrivals + 1 }
      else p

/-- A search together with what it has looked up. -/
structure Survey extends Progress where
  /-- Whether the cells of nodes are occupied, as far as that has been looked up. -/
  verdicts : Array (Option Bool)

namespace Survey

/-- Looks at one node next to an expanded one; whether its cell is occupied is looked up only if it
has not been before. -/
def look (source : Nat) (weight : Cost) (s : Survey) (next : Nat) : Survey :=
  match WalkGraph.node? g.nodes next with
  | none => s
  | some n =>
    let taken := ((s.verdicts[next]?).join).getD (occupied n.cell)
    { relax g (fun _ => taken) goal source weight s.toProgress next with
      verdicts := s.verdicts.setIfInBounds next (some taken) }

/-- Expands a node: closes it and looks at the nodes next to it. -/
def expand (i : Nat) (n : WalkNode) (label : Label) (s : Survey) : Survey :=
  let closed := { s with labels := s.labels.setIfInBounds i { label with closed := true } }
  n.links.toList.foldl (look g occupied goal i (label.weight?.getD .zero)) closed

/-- Takes candidates from the frontier until one reaches the goal, none is left, or `budget` nodes
have been expanded and another one would have to be. -/
def explore (budget : Nat) (s : Survey) : Option Nat × Survey :=
  match _found : s.frontier.pop? with
  | none => (none, s)
  | some (c, rest) =>
    match WalkGraph.node? g.nodes c.node, s.labels[c.node]? with
    | some n, some label =>
      if label.closed then explore budget { s with frontier := rest }
      else if reached g goal n.cell then (some c.node, s)
      else
        match budget with
        | 0 => (none, s)
        | budget + 1 =>
          explore budget (expand g occupied goal c.node n label { s with frontier := rest })
    | _, _ => explore budget { s with frontier := rest }
termination_by (budget, s.frontier.size)
decreasing_by
  all_goals
    have := Frontier.size_pop _found
    simp_wf
    omega

end Survey

/-- The cells on the way to a node, in front of those already collected.  A way visits no node
twice, so it is not longer than there are nodes. -/
def traceBack (labels : Array Label) (walked : List Cell) : (fuel : Nat) → Nat → List Cell
  | 0, _ => walked
  | fuel + 1, i =>
    match (labels[i]?).bind (·.cameFrom?), WalkGraph.node? g.nodes i with
    | some before, some n => traceBack labels (n.cell :: walked) fuel before
    | _, _ => walked

end Search

/-- The cells of a walk from `start`, which is left out, and the finder after the search. -/
def search (f : Finder) (start : Cell) (goal : WalkGoal) (occupied : Cell → Bool) :
    Option (List Cell) × Finder :=
  let f := f.cleared
  let pushed? := pushedFrom f.graph occupied start
  let origin := pushed?.getD start
  match f.graph.index? origin with
  | none => (none, { f with used := true })
  | some i =>
    let survey : Survey :=
      { labels := f.labels.setIfInBounds i { weight? := some .zero }
        frontier := Frontier.empty.push ⟨.zero, 0, i⟩
        arrivals := 0
        verdicts := f.verdicts }
    let (found?, survey) := survey.explore f.graph occupied goal f.maxExpansions
    let path? := found?.map fun j =>
      pushed?.toList ++ traceBack f.graph survey.labels [] survey.labels.size j
    (path?, { f with labels := survey.labels, verdicts := survey.verdicts, used := true })

/-- A walk to within some steps of a cell. -/
def searchTo (f : Finder) (start goal : Cell) (within : Int) (occupied : Cell → Bool) :
    Option (List Cell) × Finder :=
  f.search start ⟨(·.steps goal), within⟩ occupied

/-- The number of steps to the nearest of some cells; without cells, more than any map has. -/
def nearest (cells : List Cell) (c : Cell) : Int :=
  ((cells.map c.steps).min?).getD 0x7FFFFFFF

/-- A walk onto the nearest of some cells. -/
def searchToAny (f : Finder) (start : Cell) (cells : List Cell) (occupied : Cell → Bool) :
    Option (List Cell) × Finder :=
  if cells.isEmpty then (none, f) else f.search start ⟨nearest cells, 0⟩ occupied

/-- A walk to a cell next to an actor. -/
def searchToActor (f : Finder) (start actor : Cell) (occupied : Cell → Bool) :
    Option (List Cell) × Finder :=
  f.searchTo start actor 1 occupied

/-- A walk onto one of the cells that a connection leads off. -/
def searchToConnection (f : Finder) (start : Cell) (exits : List Cell) (occupied : Cell → Bool) :
    Option (List Cell) × Finder :=
  f.searchToAny start exits occupied

/-- A walk onto a warp, or next to it if it cannot be stood on. -/
def searchToWarp (f : Finder) (start warp : Cell) (occupied : Cell → Bool) :
    Option (List Cell) × Finder :=
  f.searchTo start warp (if f.graph.isStandable warp then 0 else 1) occupied

end Finder

end Cartridge
