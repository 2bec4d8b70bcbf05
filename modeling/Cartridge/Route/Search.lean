import Cartridge.Queue
import Cartridge.Route.Edge
import Std.Data.HashMap

/-!
# RouteFinder — the route over the fewest borders and warps

Candidates are chains of hops, shortest first.  Whether a hop can be walked is asked only when a
candidate has reached the goal; a hop that cannot takes every waiting candidate with it that uses
it.  Verdicts are remembered until their source reports another generation, the exits of a border
for good.
-/

namespace Cartridge

/-- Whether a place satisfies the goal of a search. -/
inductive Goal where
  | notYet
  | reached
  /-- One more hop on the same map does. -/
  | approach (edge : Edge)
deriving DecidableEq

/-- What a search asks: each answer may change the state of whoever gives it. -/
structure Guide (σ : Type) where
  /-- Changes when earlier verdicts may no longer hold. -/
  generation : σ → Nat
  /-- Whether a hop from a place can be walked. -/
  validate : σ → Spot → Edge → Bool × σ
  /-- Whether a place on a map satisfies the goal. -/
  check : σ → Map → Spot → Goal × σ

/-- A chain of hops that waits to be looked at. -/
structure RouteCandidate where
  spot : Spot
  /-- The hops, last one first. -/
  hops : List RouteStep
  visited : List Spot
  /-- Whether the chain has reached the goal. -/
  complete : Bool

namespace RouteCandidate

/-- Whether the chain uses a hop. -/
def uses (c : RouteCandidate) (start : Spot) (edge : Edge) : Bool :=
  c.hops.any fun step => step.start == start && step.edge == edge

/-- The chain with one more hop. -/
def extend (c : RouteCandidate) (edge : Edge) (finish : Spot) : RouteCandidate :=
  { c with
    spot := finish
    hops := ⟨c.spot, edge, finish⟩ :: c.hops
    visited := finish :: c.visited }

end RouteCandidate

/-- The verdicts of earlier searches, the generation they belong to and the exits found so far. -/
structure RouteFinder where
  world : World
  /-- The candidates that a search may look at. -/
  maxCandidates : Nat
  verdicts : Std.HashMap (Spot × Edge) Bool := {}
  generation? : Option Nat := none
  /-- The exits of the borders of a map, by their number. -/
  exits : Std.HashMap (MapId × Nat) (List Cell) := {}

namespace RouteFinder

/-- The remembered verdict on a hop. -/
def verdict? (f : RouteFinder) (start : Spot) (edge : Edge) : Option Bool :=
  f.verdicts[(start, edge)]?

/-- Forgets all verdicts. -/
def clear (f : RouteFinder) : RouteFinder :=
  { f with verdicts := {} }

/-- Forgets all verdicts unless they belong to a generation. -/
def atGeneration (f : RouteFinder) (generation : Nat) : RouteFinder :=
  if f.generation? = some generation then f
  else { f.clear with generation? := some generation }

/-- The exits of a border, worked out once. -/
def borderExits (f : RouteFinder) (here : MapId) (m neighbor : Map) (index : Nat)
    (c : Connection) : List Cell × RouteFinder :=
  match f.exits[(here, index)]? with
  | some exits => (exits, f)
  | none =>
    let exits := c.exits m neighbor
    (exits, { f with exits := f.exits.insert (here, index) exits })

/-- The hops over numbered borders of a map. -/
def borderCrossings (f : RouteFinder) (here : MapId) (m : Map) :
    List (Connection × Nat) → List (Edge × Spot) × RouteFinder
  | [] => ([], f)
  | (c, index) :: rest =>
    match f.world.map? c.target with
    | none => borderCrossings f here m rest
    | some neighbor =>
      let (exits, f) := f.borderExits here m neighbor index c
      let (hops, f) := borderCrossings f here m rest
      (c.crossings neighbor exits ++ hops, f)

/-- The hops that leave a map: borders first, then warps. -/
def crossings (f : RouteFinder) (here : MapId) (m : Map) : List (Edge × Spot) × RouteFinder :=
  let (hops, f) := f.borderCrossings here m m.connections.toList.zipIdx
  (hops ++ m.warps.toList.zipIdx.filterMap fun (warp, index) =>
    f.world.warpCrossing? m index warp, f)

variable {σ : Type} (guide : Guide σ)

/-- The verdict on a hop, asked for once. -/
def judge (f : RouteFinder) (s : σ) (step : RouteStep) : Bool × RouteFinder × σ :=
  match f.verdict? step.start step.edge with
  | some verdict => (verdict, f, s)
  | none =>
    let (verdict, s) := guide.validate s step.start step.edge
    (verdict, { f with verdicts := f.verdicts.insert (step.start, step.edge) verdict }, s)

/-- The first hop of a chain that cannot be walked. -/
def firstBlocked? (f : RouteFinder) (s : σ) :
    List RouteStep → Option RouteStep × RouteFinder × σ
  | [] => (none, f, s)
  | step :: rest =>
    match judge guide f s step with
    | (true, f, s) => firstBlocked? f s rest
    | (false, f, s) => (some step, f, s)

/-- Where a last hop on a map leaves the player. -/
def approachSpot (here : Spot) : Edge → Spot
  | .position cell => ⟨cell, here.map⟩
  | .person person => ⟨person.cell, here.map⟩
  | _ => here

/-- The candidate that a goal makes complete. -/
def completed (c : RouteCandidate) : Goal → Option RouteCandidate
  | .notYet => none
  | .reached => some { c with complete := true }
  | .approach edge =>
    some { c with
      hops := ⟨c.spot, edge, approachSpot c.spot edge⟩ :: c.hops
      complete := true }

/-- The candidates one hop farther, at places that the chain has not seen. -/
def successors (hops : List (Edge × Spot)) (c : RouteCandidate) : List RouteCandidate :=
  hops.filterMap fun (edge, finish) =>
    if c.visited.contains finish then none else some (c.extend edge finish)

/-- Looks at waiting candidates until one is a walkable chain to the goal, none is left, or `budget`
of them have been looked at. -/
def explore (f : RouteFinder) (s : σ) (queue : Queue RouteCandidate) :
    (budget : Nat) → Option (List RouteStep) × RouteFinder × σ
  | 0 => (none, f, s)
  | budget + 1 =>
    match queue.pop? with
    | none => (none, f, s)
    | some (c, queue) =>
      if c.complete then
        match firstBlocked? guide f s c.hops.reverse with
        | (none, f, s) => (some c.hops.reverse, f, s)
        | (some step, f, s) =>
          explore f s (queue.filter fun c => !c.uses step.start step.edge) budget
      else
        match f.world.map? c.spot.map with
        | none => explore f s queue budget
        | some m =>
          let (goal, s) := guide.check s m c.spot
          let (hops, f) := f.crossings c.spot.map m
          let queue := queue.pushAll (completed c goal).toList
          explore f s (queue.pushAll (successors hops c)) budget

/-- The route from a place to the goal. -/
def search (f : RouteFinder) (s : σ) (start : Spot) : Option (List RouteStep) × RouteFinder × σ :=
  let f := f.atGeneration (guide.generation s)
  explore guide f s (.ofList [⟨start, [], [start], false⟩]) f.maxCandidates

end RouteFinder

namespace Goal

/-- The goal of reaching one place: its own cell, or another one of its map. -/
def atSpot (target : Spot) (m : Map) (here : Spot) : Goal :=
  if here.map ≠ target.map then notYet
  else if (m.tile? target.cell).isNone then notYet
  else if here = target then reached
  else approach (.position target.cell)

/-- The goal of reaching a map. -/
def onMap (target : MapId) (here : Spot) : Goal :=
  if here.map = target then reached else notYet

/-- The goal of standing next to the first person from `i` on who passes a test. -/
def nextToPerson {σ : Type} (test : σ → Map → Nat → Bool × σ) (s : σ) (m : Map) (i : Nat) :
    List Person → Goal × σ
  | [] => (notYet, s)
  | person :: rest =>
    match test s m i with
    | (true, s) => (approach (.person person), s)
    | (false, s) => nextToPerson test s m (i + 1) rest

/-- The goal of standing next to the first person of a map who passes a test. -/
def atPerson {σ : Type} (test : σ → Map → Nat → Bool × σ) (s : σ) (m : Map) : Goal × σ :=
  nextToPerson test s m 0 m.persons.toList

end Goal

end Cartridge
