import Cartridge.Walk.Cost
import Cartridge.World.Map

/-!
# WalkGraph — where one move leads from every cell of a map

A node is a cell that can be stood on.  A move leads to the neighbouring node, or over a ledge that
is jumped in the direction of the move to the node behind it.  One pass over the cells sets the
links to the right and downwards, and with them the links back.
-/

namespace Cartridge

/-- What walking costs and how long a search may look. -/
structure WalkSettings where
  walkCost : Binary32 := ⟨0x3F800000⟩
  /-- The cost of stepping into tall grass. -/
  grassCost : Binary32 := ⟨0x41200000⟩
  /-- The nodes that a search may expand. -/
  maxExpansions : Nat := 100000
deriving DecidableEq

/-- No step pays: both costs are numbers that are zero or more. -/
structure WalkSettings.Nonneg (s : WalkSettings) : Prop where
  walk : s.walkCost.IsNonneg
  grass : s.grassCost.IsNonneg

/-- The nodes that the four moves from a node lead to. -/
structure Links where
  up? : Option Nat := none
  down? : Option Nat := none
  left? : Option Nat := none
  right? : Option Nat := none
deriving DecidableEq

namespace Links

/-- The node that a move leads to. -/
def get? (l : Links) : Direction → Option Nat
  | .up => l.up?
  | .down => l.down?
  | .left => l.left?
  | .right => l.right?

/-- Lets a move lead to a node. -/
def set (l : Links) (d : Direction) (node : Nat) : Links :=
  match d with
  | .up => { l with up? := some node }
  | .down => { l with down? := some node }
  | .left => { l with left? := some node }
  | .right => { l with right? := some node }

/-- The nodes that can be reached in one move, in the order in which moves are tried. -/
def toList (l : Links) : List Nat :=
  Direction.inOrder.filterMap l.get?

end Links

/-- A cell that can be stood on. -/
structure WalkNode where
  cell : Cell
  /-- The cost of entering the cell. -/
  cost : Cost
  links : Links
deriving DecidableEq

/-- The nodes of a map, by the place of their cells in the row-by-row order. -/
structure WalkGraph where
  map : Map
  nodes : Array (Option WalkNode)

/-- The direction back. -/
def Direction.opposite : Direction → Direction
  | down => up
  | up => down
  | left => right
  | right => left

namespace WalkGraph

/-- The node of a number. -/
def node? (nodes : Array (Option WalkNode)) (i : Nat) : Option WalkNode :=
  (nodes[i]?).join

/-- The number of a cell's node. -/
def indexIn? (m : Map) (nodes : Array (Option WalkNode)) (c : Cell) : Option Nat :=
  (m.index? c).filter fun i => (node? nodes i).isSome

/-- Lets a move from a node lead to another node. -/
def link (nodes : Array (Option WalkNode)) (source : Nat) (d : Direction) (target : Nat) :
    Array (Option WalkNode) :=
  nodes.modify source fun n? => n?.map fun n => { n with links := n.links.set d target }

/-- Sets the links between a node and what lies in one direction of it. -/
def linkToward (m : Map) (d : Direction) (nodes : Array (Option WalkNode)) (c : Cell) :
    Array (Option WalkNode) :=
  match indexIn? m nodes c, m.tile? (c.move d) with
  | some here, some tile =>
    match Tile.ledge? tile.behavior with
    | none =>
      match indexIn? m nodes (c.move d) with
      | some next => link (link nodes here d next) next d.opposite here
      | none => nodes
    | some jump =>
      match indexIn? m nodes ((c.move d).move d) with
      | some landing =>
        if jump = d then link nodes here d landing
        else if jump = d.opposite then link nodes landing d.opposite here
        else nodes
      | none => nodes
  | _, _ => nodes

/-- The node of a cell before any links are set. -/
def bareNode? (m : Map) (settings : WalkSettings) (c : Cell) : Option WalkNode := do
  let tile ← m.tile? c
  if tile.isStandable then
    let cost := if tile.behavior = Tile.tallGrass then settings.grassCost else settings.walkCost
    some { cell := c, cost := .ofBinary32 cost, links := {} }
  else none

/-- The graph of a map. -/
def ofMap (m : Map) (settings : WalkSettings) : WalkGraph where
  map := m
  nodes :=
    m.cells.foldl (fun nodes c => linkToward m .down (linkToward m .right nodes c) c)
      (m.cells.map (bareNode? m settings)).toArray

variable (g : WalkGraph)

/-- The number of a cell's node. -/
def index? (c : Cell) : Option Nat :=
  indexIn? g.map g.nodes c

/-- Whether a cell can be stood on. -/
def isStandable (c : Cell) : Bool :=
  (g.index? c).isSome

/-- The cells that can be reached from a cell in one move. -/
def neighbors (c : Cell) : List Cell :=
  match (g.index? c).bind (node? g.nodes) with
  | some n => n.links.toList.filterMap fun i => (node? g.nodes i).map (·.cell)
  | none => []

end WalkGraph

end Cartridge
