import Cartridge.World.Map

/-!
# Border — crossing from one map to its neighbour

A border runs along one side of a map; the neighbour is shifted along it by an offset.  Of every run
of border cells that are open on both sides the first one stands for all.
-/

namespace Cartridge.Connection

/-- The cells of a map along a border, from left to right or from top to bottom. -/
def borderCells (m : Map) : ConnectionKind → List Cell
  | .down => (List.range m.width).map fun (x : Nat) => ⟨(x : Int), (m.height : Int) - 1⟩
  | .up => (List.range m.width).map fun (x : Nat) => ⟨(x : Int), 0⟩
  | .left => (List.range m.height).map fun (y : Nat) => ⟨0, (y : Int)⟩
  | .right => (List.range m.height).map fun (y : Nat) => ⟨(m.width : Int) - 1, (y : Int)⟩
  | _ => []

/-- The cell of the neighbour that a crossing at a cell leads to. -/
def entry? (c : Connection) (neighbor : Map) (exit : Cell) : Option Cell :=
  match c.kind with
  | .down => some ⟨exit.x - c.offset, 0⟩
  | .up => some ⟨exit.x - c.offset, (neighbor.height : Int) - 1⟩
  | .left => some ⟨(neighbor.width : Int) - 1, exit.y - c.offset⟩
  | .right => some ⟨0, exit.y - c.offset⟩
  | _ => none

/-- Whether a crossing at a cell can be walked on both sides. -/
def isOpen (c : Connection) (m neighbor : Map) (exit : Cell) : Bool :=
  m.isWalkable exit && (c.entry? neighbor exit).any neighbor.isWalkable

/-- The first cell of every run of cells that pass a test; `inRun` says whether the cell before the
list passed. -/
def runStarts (isOpen : Cell → Bool) (inRun : Bool) : List Cell → List Cell
  | [] => []
  | c :: rest =>
    let starts := runStarts isOpen (isOpen c) rest
    if isOpen c && !inRun then c :: starts else starts

/-- The cells at which the border is crossed. -/
def exits (c : Connection) (m neighbor : Map) : List Cell :=
  runStarts (c.isOpen m neighbor) false (borderCells m c.kind)

end Cartridge.Connection
